import ComicCatalog.Query.Field
import ComicCatalog.Store.Cell

/-! # Tables of the catalog

Eleven tables: the works, the names of each facet, and the links of each facet.
Works and names are keyed by an `id` column, which is the row number itself;
links have a row number that no column shows.
-/

namespace ComicCatalog

/-- A table of the catalog. -/
inductive Table
  | works
  | names (facet : Facet)
  | links (facet : Facet)
  deriving DecidableEq, Repr, Inhabited

/-- A column beside the row number. -/
structure Column where
  name : String
  affinity : Affinity
  /-- The column always holds a value. -/
  required : Bool
  /-- What the column holds when a row is inserted without it. -/
  default : Cell
  deriving Repr

/-- Where a column name points: to the row number or to a column. -/
inductive Slot
  | key
  | column (index : Nat)
  deriving DecidableEq, Repr, Inhabited

namespace Table

def all : List Table :=
  [.works] ++ Facet.all.map .names ++ Facet.all.map .links

def name : Table → String
  | .works => "manga"
  | .names facet => facet.namesTable
  | .links facet => facet.linksTable

/-- The table of a name; ASCII case does not matter. -/
def named? (name : String) : Option Table :=
  all.find? fun table => table.name == Text.asciiFold name

/-- The columns beside the row number, in declared order. -/
def columns : Table → List Column
  | .works => [
      ⟨"title", .text, true, .null⟩,
      ⟨"language", .text, false, .null⟩,
      ⟨"pages", .integer, false, .null⟩,
      ⟨"favorites", .integer, true, .integer 0⟩,
      ⟨"uploaded_at", .text, false, .null⟩,
      ⟨"cover_url", .text, false, .null⟩]
  | .names _ => [⟨"name", .text, true, .null⟩]
  | .links facet => [
      ⟨"manga_id", .integer, true, .null⟩,
      ⟨facet.linkColumn, .integer, true, .null⟩]

/-- Whether the row number is a column, `id`. -/
def keyed : Table → Bool
  | .links _ => false
  | _ => true

/-- The name under which the row number is shown. -/
def keyName (table : Table) : String :=
  if table.keyed then "id" else "rowid"

/-- The name of the column that must not repeat, beside the row number. -/
def uniqueColumn? : Table → Option Nat
  | .names _ => some 0
  | _ => none

/-- Whether an index keeps the rows in the order of a column as well. -/
def isIndexed : Table → Slot → Bool
  | .works, slot => slot = .column 1
  | .names _, slot => slot = .column 0
  | .links facet, slot => slot = .column 1 || (slot = .column 0 && facet ∈ [.tag, .artist])

/-- The columns whose values must be row numbers of other tables. -/
def references : Table → List (Nat × Table)
  | .links facet => [(0, .works), (1, .names facet)]
  | _ => []

/-- The slot of a column name; ASCII case does not matter. The row number also
answers to three names of its own. -/
def slot? (table : Table) (name : String) : Option Slot :=
  let folded := Text.asciiFold name
  match table.columns.findIdx? fun column => column.name == folded with
  | some index => some (.column index)
  | none =>
      if (table.keyed && folded == "id") || folded == "rowid" || folded == "_rowid_" ||
          folded == "oid" then some .key
      else none

def affinity (table : Table) : Slot → Affinity
  | .key => .integer
  | .column index => (table.columns[index]?.map Column.affinity).getD .text

/-- The value that a text stands for in comparisons with a slot; a text that is no
row number equals none of them. -/
def operand? (table : Table) (slot : Slot) (s : String) : Option Cell :=
  match slot with
  | .key => (Cell.rowNumber? s).map .integer
  | .column index => some (Cell.operand (table.affinity (.column index)) s)

/-- The name under which a slot is shown. -/
def label (table : Table) : Slot → String
  | .key => table.keyName
  | .column index => (table.columns[index]?.map Column.name).getD ""

/-- The slots that a row shows when no columns are named. -/
def slots (table : Table) : List Slot :=
  (if table.keyed then [.key] else []) ++
    (List.range table.columns.length).map .column

theorem named?_works : named? "manga" = some .works := by
  decide

theorem named?_namesTable (facet : Facet) : named? facet.namesTable = some (.names facet) := by
  cases facet <;> decide

theorem named?_linksTable (facet : Facet) : named? facet.linksTable = some (.links facet) := by
  cases facet <;> decide

theorem slot?_works_id : slot? .works "id" = some .key := by
  decide

theorem slot?_works_title : slot? .works "title" = some (.column 0) := by
  decide

theorem slot?_names_id (facet : Facet) : slot? (.names facet) "id" = some .key := by
  cases facet <;> decide

theorem slot?_names_name (facet : Facet) : slot? (.names facet) "name" = some (.column 0) := by
  cases facet <;> decide

theorem slot?_links_work (facet : Facet) : slot? (.links facet) "manga_id" = some (.column 0) := by
  cases facet <;> decide

theorem slot?_links_name (facet : Facet) :
    slot? (.links facet) facet.linkColumn = some (.column 1) := by
  cases facet <;> decide

end Table

/-- A row: its number, and its cells in the order of the table's columns. -/
structure Row where
  key : Int
  cells : List Cell
  deriving DecidableEq, Repr, Inhabited

/-- The value of a row in a slot. -/
def Row.cell (row : Row) : Slot → Cell
  | .key => .integer row.key
  | .column index => row.cells[index]?.getD .null

end ComicCatalog
