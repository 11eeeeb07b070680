import ComicCatalog.Lookup.Program
import ComicCatalog.Store.Answer

/-! # Sources

Who answers selects: a database, a script that answers the selects of each table
in turn whatever they ask, or another source behind a fault on one table.
-/

namespace ComicCatalog

/-- One scripted answer. -/
inductive Reply
  | rows (rows : List Record)
  | refused (failure : StoreError)

/-- Someone who answers selects. -/
inductive Source
  | database (db : Database)
  /-- The answers left for each table. A table without answers has no rows. -/
  | script (replies : List (String × List Reply))
  /-- Every select on exactly this table name fails. -/
  | faulty (table : String) (inner : Source)
  deriving Inhabited

namespace Source

/-- The fault of a faulty source. -/
def simulatedFault (table : String) : StoreError :=
  .database (.reported ("simulated failure on table " ++ table))

/-- The next answer of a script for a table, and the script without it. -/
def nextReply (table : String) :
    List (String × List Reply) → Option Reply × List (String × List Reply)
  | [] => (none, [])
  | (name, replies) :: rest =>
      if name = table then (replies.head?, (name, replies.tail) :: rest)
      else
        let (reply, rest) := nextReply table rest
        (reply, (name, replies) :: rest)

/-- Answer a select. -/
def respond (select : Select) : Source → Except StoreError (List Record) × Source
  | .database db => (db.answer select, .database db)
  | .script replies =>
      match nextReply select.table replies with
      | (some (.rows rows), replies) => (.ok rows, .script replies)
      | (some (.refused failure), replies) => (.error failure, .script replies)
      | (none, replies) => (.ok [], .script replies)
  | .faulty table inner =>
      if select.table = table then (.error (simulatedFault table), .faulty table inner)
      else
        let (answer, inner) := inner.respond select
        (answer, .faulty table inner)

/-- The database behind a source, if there is one. -/
def database? : Source → Option Database
  | .database db => some db
  | .script _ => none
  | .faulty _ inner => inner.database?

/-- The source with another database behind it. -/
def withDatabase (db : Database) : Source → Source
  | .database _ => .database db
  | .script replies => .script replies
  | .faulty table inner => .faulty table (inner.withDatabase db)

end Source

end ComicCatalog
