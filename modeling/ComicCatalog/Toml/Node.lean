import ComicCatalog.Settings.Tree

/-! # Tables under construction

A document names the same table in several places: in its own header, in the
headers of tables inside it, and in dotted keys. Which of these may meet is
decided by where a table came from.
-/

namespace ComicCatalog.Toml

/-- Where a table came from: a header of its own, a header of a table inside it,
or a dotted key. -/
inductive Origin
  | header
  | inner
  | dotted
  deriving DecidableEq, Repr, Inhabited

/-- A named thing in a document: a finished value, a table, or a series of
tables of which the last is still open. -/
inductive Node
  | leaf (value : Tree)
  | table (origin : Origin) (fields : List (String × Node))
  | series (closed : List (List (String × Node))) (last : List (String × Node))
  deriving Inhabited

/-- The named things of a table. -/
abbrev Fields := List (String × Node)

namespace Fields

/-- Give a name a thing, in its place if the name is there already. -/
def set : Fields → String → Node → Fields
  | [], name, node => [(name, node)]
  | (other, old) :: rest, name, node =>
      if other = name then (name, node) :: rest else (other, old) :: set rest name node

/-- Change the table at the end of a path of names. Tables missing on the way
are made. A dotted key may not enter a table that has a header of its own. The
change is told where its table came from. -/
def alter? (dotted : Bool) (change : Origin → Fields → Option Fields) (origin : Origin)
    (fields : Fields) : List String → Option Fields
  | [] => change origin fields
  | name :: path =>
      match fields.lookup name with
      | none =>
          let origin := if dotted then .dotted else .inner
          (alter? dotted change origin [] path).map fun inner =>
            fields.set name (.table origin inner)
      | some (.leaf _) => none
      | some (.series closed last) =>
          (alter? dotted change .header last path).map fun last =>
            fields.set name (.series closed last)
      | some (.table origin inner) =>
          if dotted && origin = .header then none
          else
            (alter? dotted change origin inner path).map fun inner =>
              fields.set name (.table origin inner)

/-- Add a value under a dotted key, whose last name is given apart. -/
def addValue? (path : List String) (name : String) (value : Tree) (fields : Fields) :
    Option Fields :=
  fields.alter? true (fun origin inner =>
    if (origin = .dotted ↔ path = []) ∨ (inner.lookup name).isSome then none
    else some (inner.set name (.leaf value))) .header path

/-- Open a table by its header. -/
def openTable? (path : List String) (name : String) (fields : Fields) : Option Fields :=
  fields.alter? false (fun _ outer =>
    match outer.lookup name with
    | none => some (outer.set name (.table .header []))
    | some (.table .inner inner) => some (outer.set name (.table .header inner))
    | some _ => none) .header path

/-- Open the next table of a series by its header. -/
def openNext? (path : List String) (name : String) (fields : Fields) : Option Fields :=
  fields.alter? false (fun _ outer =>
    match outer.lookup name with
    | none => some (outer.set name (.series [] []))
    | some (.series closed last) => some (outer.set name (.series (closed ++ [last]) []))
    | some _ => none) .header path

end Fields

mutual

/-- The finished tree of a named thing. -/
def Node.tree : Node → Tree
  | .leaf value => value
  | .table _ fields => .table (Fields.trees fields)
  | .series closed last => .list (Fields.seriesTrees closed ++ [.table (Fields.trees last)])

def Fields.trees : List (String × Node) → List (String × Tree)
  | [] => []
  | (name, node) :: rest => (name, node.tree) :: Fields.trees rest

def Fields.seriesTrees : List (List (String × Node)) → List Tree
  | [] => []
  | fields :: rest => .table (Fields.trees fields) :: Fields.seriesTrees rest

end

end ComicCatalog.Toml
