import ComicCatalog.Work.Entry

/-! # Selects

The one question the catalog asks of its tables: some columns of the rows that
pass every condition, perhaps in an order, perhaps only the first few.
-/

namespace ComicCatalog

/-- What a condition tests its column for. -/
inductive Test
  /-- The column equals the value. -/
  | equals (value : String)
  /-- The column equals one of the values. -/
  | oneOf (values : List String)
  /-- The column contains the text, whatever the case of either. -/
  | contains (needle : String)
  deriving DecidableEq, Repr, Inhabited

/-- A test of one column, on lowercase forms if `folding` is set. -/
structure Condition where
  column : String
  test : Test
  folding : Bool
  deriving DecidableEq, Repr, Inhabited

namespace Condition

def equals (column value : String) : Condition :=
  ⟨column, .equals value, false⟩

def equalsFolded (column value : String) : Condition :=
  ⟨column, .equals value, true⟩

def oneOf (column : String) (values : List String) : Condition :=
  ⟨column, .oneOf values, false⟩

def oneOfFolded (column : String) (values : List String) : Condition :=
  ⟨column, .oneOf values, true⟩

def contains (column needle : String) : Condition :=
  ⟨column, .contains needle, true⟩

end Condition

/-- An ordering by one column. -/
structure SortBy where
  column : String
  direction : Direction
  deriving DecidableEq, Repr, Inhabited

/-- A select against one table. Without columns it asks for all of them. -/
structure Select where
  table : String
  columns : Option (List String)
  conditions : List Condition
  order : Option SortBy
  limit : Option Nat
  deriving DecidableEq, Repr, Inhabited

namespace Select

/-- All rows and columns of a table. -/
def all (table : String) : Select :=
  ⟨table, none, [], none, none⟩

/-- Some columns of all rows of a table. -/
def ofColumns (table : String) (columns : List String) : Select :=
  ⟨table, some columns, [], none, none⟩

/-- Ask for one more condition. -/
def filtered (select : Select) (condition : Condition) : Select :=
  { select with conditions := select.conditions ++ [condition] }

def ordered (select : Select) (column : String) (direction : Direction) : Select :=
  { select with order := some ⟨column, direction⟩ }

def limited (select : Select) (limit : Nat) : Select :=
  { select with limit := some limit }

/-- The columns that are asked for by name. -/
def namedColumns (select : Select) : List String :=
  select.columns.getD []

end Select

end ComicCatalog
