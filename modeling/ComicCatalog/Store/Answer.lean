import ComicCatalog.Store.Database
import ComicCatalog.Store.Pattern
import ComicCatalog.Store.Statement

/-! # Answering selects

A select is answered in the order its statement reads: the names are resolved,
the rows that pass every condition are kept in the order of their numbers, then
sorted, cut to the limit, and shown with the asked columns. A condition that
compares a column with one value alone ties the column to it: conditions on the
lowercase form of the column then look at the value instead of at the rows.
-/

namespace ComicCatalog

/-- A condition made ready for one column: its values are converted or folded
once for all rows. -/
inductive Matcher
  | never
  | oneOf (values : List Cell)
  | oneOfFolded (values : List String)
  | like (pattern : List PatternElement)
  | tooComplex
  deriving DecidableEq, Repr

namespace Matcher

/-- Make a test ready for a column that compares texts as `operand?` says. -/
def ofTest (operand? : String → Option Cell) (test : Test) (folding : Bool) : Matcher :=
  match test with
  | .equals value =>
      if folding then .oneOfFolded [Text.fold value] else .oneOf ([value].filterMap operand?)
  | .oneOf values =>
      if folding then .oneOfFolded (values.map Text.fold)
      else .oneOf (values.filterMap operand?)
  | .contains needle =>
      let pattern := Text.fold (substringPattern needle)
      if Pattern.maxBytes < pattern.utf8ByteSize then .tooComplex
      else
        match Pattern.elements? (Pattern.units pattern.toList) with
        | some elements => .like elements
        | none => .never

/-- Whether a value passes. A pattern that is too long fails the whole select as
soon as one value is tested. -/
def test (matcher : Matcher) (cell : Cell) : Except DatabaseFault Bool :=
  match matcher with
  | .never => .ok false
  | .oneOf values => .ok (values.any cell.equals)
  | .oneOfFolded values =>
      match cell.folded? with
      | some folded => .ok (values.contains folded)
      | none => .ok false
  | .like pattern =>
      match cell.folded? with
      | some folded => .ok (Pattern.accepts pattern (Pattern.units folded.toList))
      | none => .ok false
  | .tooComplex => .error .patternTooComplex

end Matcher

namespace Condition

/-- The value that a condition ties its column to: the only one that the column, as
it is, is compared with. -/
def tie? (condition : Condition) : Option String :=
  match condition.folding, condition.test with
  | false, .equals value => some value
  | false, .oneOf [value] => some value
  | _, _ => none

/-- Whether a condition looks at the lowercase form of its column. -/
def folds (condition : Condition) : Bool :=
  condition.folding || condition.isPattern

end Condition

/-- A condition resolved against a table. -/
structure RowTest where
  slot : Slot
  matcher : Matcher
  deriving Repr

namespace Database

/-- Resolve a condition. No row is ever tested with a condition on an unknown
column: the statement is refused, or nothing is kept. -/
def rowTest (table : Table) (condition : Condition) : RowTest :=
  match table.slot? condition.column with
  | some slot => ⟨slot, .ofTest (table.operand? slot) condition.test condition.folding⟩
  | none => ⟨.key, .never⟩

/-- Whether a row passes every test, tried in order until one fails. -/
def passes (row : Row) : List RowTest → Except DatabaseFault Bool
  | [] => .ok true
  | test :: rest =>
      match test.matcher.test (row.cell test.slot) with
      | .error fault => .error fault
      | .ok false => .ok false
      | .ok true => passes row rest

/-- The rows that pass every test, in order. -/
def filtered (tests : List RowTest) : List Row → Except DatabaseFault (List Row)
  | [] => .ok []
  | row :: rest =>
      match passes row tests with
      | .error fault => .error fault
      | .ok kept =>
          match filtered tests rest with
          | .error fault => .error fault
          | .ok found => .ok (if kept then row :: found else found)

/-- The value that conditions tie a slot to, as the slot stores it. The last condition
that ties the slot counts. -/
def tied? (table : Table) (conditions : List Condition) (slot : Slot) : Option Cell :=
  conditions.reverse.findSome? fun condition =>
    if table.slot? condition.column = some slot then
      condition.tie?.map fun value => Cell.stored (table.affinity slot) (.ofText value)
    else none

/-- The value that decides a condition before any row is looked at: the one that its
column is tied to, if it looks at the lowercase form. -/
def deciding? (table : Table) (conditions : List Condition) (condition : Condition) :
    Option Cell :=
  if condition.folds then (table.slot? condition.column).bind (tied? table conditions)
  else none

/-- Whether the conditions that are decided before any row are met, tried in order
until one fails. -/
def decided (table : Table) (conditions : List Condition) :
    List Condition → Except DatabaseFault Bool
  | [] => .ok true
  | condition :: rest =>
      match deciding? table conditions condition with
      | none => decided table conditions rest
      | some cell =>
          match (rowTest table condition).matcher.test cell with
          | .error fault => .error fault
          | .ok false => .ok false
          | .ok true => decided table conditions rest

/-- The tests that are left for the rows. -/
def rowTests (table : Table) (conditions : List Condition) : List RowTest :=
  (conditions.filter fun condition => (deciding? table conditions condition).isNone).map
    (rowTest table)

/-- The rows of a table that a select's conditions let through. Nothing is tested
where no row would be kept. -/
def selected (db : Database) (table : Table) (select : Select) :
    Except DatabaseFault (List Row) :=
  if select.keepsNothing || select.limit = some 0 then .ok []
  else
    match decided table select.conditions select.conditions with
    | .error fault => .error fault
    | .ok false => .ok []
    | .ok true => filtered (rowTests table select.conditions) (db.rows table)

/-- Whether an index is walked backwards for the order of a select. No index is free for the
order where a condition looks up some column as it is. -/
def walksBack (table : Table) (select : Select) (sort : SortBy) (slot : Slot) : Bool :=
  sort.direction = .descending && table.isIndexed slot && select.conditions.all Condition.folds

/-- Rows in the order that a select asks for. Equal ones come in the order of their numbers, or
backwards where an index is walked backwards. -/
def sorted (table : Table) (select : Select) (rows : List Row) : List Row :=
  match select.order with
  | none => rows
  | some sort =>
      match table.slot? sort.column with
      | none => rows
      | some slot =>
          (if walksBack table select sort slot then rows.reverse else rows).mergeSort fun a b =>
            (sort.direction.apply ((a.cell slot).order (b.cell slot))).isLE

/-- A row as a record of the asked columns. -/
def record (table : Table) (slots : List Slot) (row : Row) : Record :=
  Record.ofPairs (slots.map fun slot => (table.label slot, (row.cell slot).toJson))

/-- The slots a select asks for. -/
def asked (table : Table) (select : Select) : List Slot :=
  match select.namedColumns with
  | [] => table.slots
  | names => names.filterMap table.slot?

/-- The answer to a select. The values are counted before any name is looked up. -/
def answer (db : Database) (select : Select) : Except StoreError (List Record) :=
  match select.statement with
  | .error failure => .error failure
  | .ok statement =>
      if Statement.maxValues < statement.values.length then
        .error (.database (.tooManyVariables statement.text
          (Piece.slotFrom Statement.maxValues 0 statement.pieces)))
      else
        match Table.named? select.table with
        | none => .error (.database (.noSuchTable select.table))
        | some table =>
            match select.unknownColumn? fun name => (table.slot? name).isSome with
            | some (name, offset) =>
                .error (.database (.noSuchColumn name statement.text offset))
            | none =>
                match db.selected table select with
                | .error fault => .error (.database fault)
                | .ok rows =>
                    let rows := sorted table select rows
                    let rows :=
                      match select.limit with
                      | none => rows
                      | some limit => rows.take limit
                    .ok (rows.map (record table (asked table select)))

end Database

end ComicCatalog
