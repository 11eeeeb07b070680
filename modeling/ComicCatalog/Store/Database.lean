import ComicCatalog.Store.Error
import ComicCatalog.Store.Table

/-! # Databases

The rows of every table, in the order of their numbers, and the insertion of a
row. An insertion converts the values by the columns' affinities and refuses the
row, changing nothing, when a constraint of the table would be broken.
-/

namespace ComicCatalog

/-- The rows of every table. Rows of one table stand in the order of their
numbers; a table that is not listed is empty. -/
structure Database where
  contents : List (Table × List Row)
  /-- Whether links must point at rows that exist. -/
  enforcesLinks : Bool
  deriving Repr, Inhabited

namespace Database

/-- A database without rows. -/
def empty (enforcesLinks : Bool) : Database :=
  ⟨[], enforcesLinks⟩

/-- The rows of a table. -/
def rows (db : Database) (table : Table) : List Row :=
  (db.contents.lookup table).getD []

/-- Replace the rows of a table. -/
def withRows (db : Database) (table : Table) (rows : List Row) : Database :=
  { db with contents := (table, rows) :: db.contents.filter fun entry => entry.1 != table }

@[simp]
theorem rows_withRows_self (db : Database) (table : Table) (rows : List Row) :
    (db.withRows table rows).rows table = rows := by
  simp [Database.rows, withRows]

theorem lookup_filter_ne (contents : List (Table × List Row)) {table other : Table}
    (hne : other ≠ table) :
    (contents.filter fun entry => entry.1 != table).lookup other = contents.lookup other := by
  induction contents with
  | nil => rfl
  | cons entry rest ih =>
      obtain ⟨first, rows⟩ := entry
      by_cases hfirst : first = table
      · subst hfirst
        have hkey : (other == first) = false := by simp [hne]
        simp [List.lookup_cons, hkey, ih]
      · by_cases hkey : other = first
        · subst hkey
          simp [hfirst]
        · have hkey' : (other == first) = false := by simp [hkey]
          simp [List.lookup_cons, hfirst, hkey', ih]

theorem rows_withRows_of_ne (db : Database) {table other : Table} (rows : List Row)
    (hne : other ≠ table) : (db.withRows table rows).rows other = db.rows other := by
  have hkey : (other == table) = false := by simp [hne]
  simp [Database.rows, withRows, List.lookup_cons, hkey, lookup_filter_ne db.contents hne]

/-- Put a row among rows in the order of their numbers. -/
def place (row : Row) : List Row → List Row
  | [] => [row]
  | next :: rest => if row.key < next.key then row :: next :: rest else next :: place row rest

/-- The largest row number up to `n` that is free; the rows come from the largest
number down, none above `n`. -/
def freeKey? (n : Int) : List Row → Option Int
  | [] => if Word.minSigned ≤ n then some n else none
  | row :: rest => if row.key < n then some n else freeKey? (n - 1) rest

/-- The number of a row that is inserted without one: the next one or, once the
largest number of a word is taken, one that is free. -/
def nextKey? (rows : List Row) : Option Int :=
  match rows.getLast? with
  | some row =>
      if row.key < Word.maxSigned then some (row.key + 1)
      else freeKey? Word.maxSigned rows.reverse
  | none => some 1

/-- The row number that a value asks for; nothing asks for the next one. -/
def keyOf (rows : List Row) (value : Cell) : Except DatabaseFault Int :=
  match Cell.stored .integer value with
  | .null =>
      match nextKey? rows with
      | some key => .ok key
      | none => .error .full
  | .integer n => .ok n
  | _ => .error .datatypeMismatch

/-- The slots that a row is inserted with, each with its value. -/
def assign (table : Table) (columns : List String) (values : List Cell) :
    Except DatabaseFault (List (Slot × Cell)) := do
  let slots ← columns.mapM fun name =>
    match table.slot? name with
    | some slot => .ok slot
    | none => .error (.noColumnNamed table.name name)
  if slots.length = values.length then .ok (slots.zip values)
  else .error (.valueCount table.name slots.length values.length)

/-- The cells of a new row: what it is given, converted, or the default. -/
def newCells (table : Table) (given : List (Slot × Cell)) : List Cell :=
  table.columns.zipIdx.map fun (column, index) =>
    match given.lookup (.column index) with
    | some value => Cell.stored column.affinity value
    | none => column.default

/-- The first required column that a row leaves without a value. -/
def missing? (table : Table) (row : Row) : Option String :=
  (table.columns.zip row.cells).findSome? fun (column, cell) =>
    if column.required && cell == .null then some column.name else none

/-- The unique column, if a row repeats its value. -/
def repeated? (db : Database) (table : Table) (row : Row) : Option String :=
  if (db.rows table).any fun other => other.key == row.key then some table.keyName
  else
    table.uniqueColumn?.bind fun index =>
      if (db.rows table).any fun other =>
          (other.cell (.column index)).equals (row.cell (.column index)) then
        some (table.label (.column index))
      else none

/-- Whether every link of a row points at a row that exists. -/
def linked (db : Database) (table : Table) (row : Row) : Bool :=
  table.references.all fun (index, target) =>
    match row.cell (.column index) with
    | .null => true
    | .integer n => (db.rows target).any fun other => other.key == n
    | _ => false

/-- Check the constraints of a table and add a row to it. -/
def addRow (db : Database) (table : Table) (row : Row) : Except DatabaseFault Database :=
  match missing? table row with
  | some column => .error (.notNull table.name column)
  | none =>
      match db.repeated? table row with
      | some column => .error (.notUnique table.name column)
      | none =>
          if db.enforcesLinks && !db.linked table row then .error .foreignKey
          else .ok (db.withRows table (place row (db.rows table)))

/-- The row number that a new row asks for: the last one, where it is named more than once. -/
def askedKey (given : List (Slot × Cell)) : Cell :=
  (given.reverse.lookup .key).getD .null

/-- Insert one row with the given columns. -/
def insert (db : Database) (tableName : String) (columns : List String) (values : List Cell) :
    Except DatabaseFault Database := do
  match Table.named? tableName with
  | none => .error (.noSuchTable tableName)
  | some table =>
      let given ← assign table columns values
      let key ← keyOf (db.rows table) (askedKey given)
      db.addRow table ⟨key, newCells table given⟩

/-- Insert rows one after the other. A refused row stops the rest and keeps the
ones before. -/
def insertAll (db : Database) (tableName : String) (columns : List String) :
    List (List Cell) → Database × Option DatabaseFault
  | [] => (db, none)
  | values :: rest =>
      match db.insert tableName columns values with
      | .ok next => next.insertAll tableName columns rest
      | .error fault => (db, some fault)

end Database

end ComicCatalog
