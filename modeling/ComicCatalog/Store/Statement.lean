import ComicCatalog.Store.Select
import ComicCatalog.Store.Error

/-! # Select statements

The statement of a select and the values bound to it. Names are checked to be
plain identifiers and stand in the text between grave accents; values never
reach the text, which holds a placeholder for each of them.
-/

namespace ComicCatalog

/-- A plain identifier: ASCII letters, digits and underscores, not starting with
a digit. -/
def isIdentifier (name : String) : Bool :=
  match name.toList with
  | [] => false
  | first :: rest =>
      (first.isAlpha || first = '_') && rest.all fun c => c.isAlphanum || c = '_'

/-- Accept a plain identifier. -/
def checkIdentifier (name : String) : Except StoreError Unit :=
  if isIdentifier name then .ok () else .error (.invalidIdentifier name)

/-- A piece of a statement. -/
inductive Piece
  | words (text : String)
  | table (name : String)
  | column (name : String)
  /-- A placeholder for the next bound value. -/
  | slot
  deriving DecidableEq, Repr

namespace Piece

/-- A name between grave accents. Unlike double quotes, which fall back to a text
literal when no column has the name, they always stand for a name. -/
def quotedName (name : String) : String :=
  "`" ++ name ++ "`"

def text : Piece → String
  | .words text => text
  | .table name => quotedName name
  | .column name => quotedName name
  | .slot => "?"

end Piece

/-- A statement as pieces, and the values for its placeholders in order. -/
structure Statement where
  pieces : List Piece
  values : List String
  deriving DecidableEq, Repr

namespace Statement

/-- The most values that a statement binds. -/
def maxValues : Nat := 32766

def text (statement : Statement) : String :=
  String.join (statement.pieces.map Piece.text)

end Statement

namespace Piece

/-- How many bytes pieces take in the text. -/
def size : List Piece → Nat
  | [] => 0
  | piece :: rest => piece.text.utf8ByteSize + size rest

/-- The column names in the order of the text, each with its byte offset. -/
def columnsFrom (offset : Nat) : List Piece → List (String × Nat)
  | [] => []
  | .column name :: rest =>
      (name, offset) :: columnsFrom (offset + (Piece.column name).text.utf8ByteSize) rest
  | piece :: rest => columnsFrom (offset + piece.text.utf8ByteSize) rest

/-- The byte offset of the placeholder that has `count` others before it. -/
def slotFrom (count offset : Nat) : List Piece → Nat
  | [] => offset
  | .slot :: rest =>
      match count with
      | 0 => offset
      | count + 1 => slotFrom count (offset + slot.text.utf8ByteSize) rest
  | piece :: rest => slotFrom count (offset + piece.text.utf8ByteSize) rest

end Piece

/-- The pieces of several groups with a separator between them. -/
def separated (separator : Piece) : List (List Piece) → List Piece
  | [] => []
  | [group] => group
  | group :: rest => group ++ separator :: separated separator rest

/-- Put a backslash before the characters that a pattern gives a meaning. -/
def escapePattern (needle : List Char) : List Char :=
  needle.flatMap fun c =>
    if c = '%' ∨ c = '_' ∨ c = '\\' then ['\\', c] else [c]

/-- The pattern of a substring test: anything, the escaped text, anything. -/
def substringPattern (needle : String) : String :=
  String.ofList ('%' :: (escapePattern needle.toList ++ ['%']))

namespace Condition

/-- The pieces of a condition's clause. An empty list of values is the constant
false, which mentions neither the column nor a value. -/
def clause (condition : Condition) : List Piece :=
  let column := Piece.column condition.column
  match condition.test with
  | .equals _ =>
      if condition.folding then [.words "fold_case(", column, .words ") = fold_case(", .slot, .words ")"]
      else [column, .words " = ", .slot]
  | .oneOf [] => [.words "0"]
  | .oneOf values =>
      if condition.folding then
        [.words "fold_case(", column, .words ") IN ("] ++
          separated (.words ", ") (values.map fun _ => [.words "fold_case(", .slot, .words ")"]) ++
          [.words ")"]
      else
        [column, .words " IN ("] ++ separated (.words ", ") (values.map fun _ => [.slot]) ++
          [.words ")"]
  | .contains _ =>
      [.words "fold_case(", column, .words ") LIKE fold_case(", .slot, .words ") ESCAPE '\\'"]

/-- Whether a condition is a test for a substring. -/
def isPattern (condition : Condition) : Bool :=
  match condition.test with
  | .contains _ => true
  | _ => false

/-- Whether an unknown column in this condition ends the lookup of columns: one
that stands alone does, and so does one that is compared with a single value out
of a list. One inside a call does not. -/
def endsLookup (condition : Condition) : Bool :=
  match condition.test with
  | .contains _ => false
  | .equals _ => !condition.folding
  | .oneOf values => !condition.folding || values.length = 1

/-- The values bound to a condition's placeholders. -/
def bound (condition : Condition) : List String :=
  match condition.test with
  | .equals value => [value]
  | .oneOf values => values
  | .contains needle => [substringPattern needle]

end Condition

namespace Select

/-- Every name that must be a plain identifier, in the order in which they are
checked. -/
def names (select : Select) : List String :=
  select.table :: (select.namedColumns ++ select.conditions.map Condition.column ++
    (select.order.map SortBy.column).toList)

/-- The pieces up to the table. -/
def heading (select : Select) : List Piece :=
  let columns :=
    match select.namedColumns with
    | [] => [Piece.words "*"]
    | names => separated (.words ", ") (names.map fun name => [.column name])
  [.words "SELECT "] ++ columns ++ [.words " FROM ", .table select.table]

/-- The pieces that tell which rows are kept. -/
def filtering (select : Select) : List Piece :=
  match select.conditions with
  | [] => []
  | conditions => .words " WHERE " :: separated (.words " AND ") (conditions.map Condition.clause)

/-- The pieces that tell the order of the rows and how many there are at most. -/
def closing (select : Select) : List Piece :=
  let order :=
    match select.order with
    | none => []
    | some sort => [.words " ORDER BY ", .column sort.column, .words (" " ++ sort.direction.keyword)]
  let limit :=
    match select.limit with
    | none => []
    | some limit => [.words (" LIMIT " ++ toString limit)]
  order ++ limit

/-- The pieces of a select's statement. -/
def pieces (select : Select) : List Piece :=
  select.heading ++ select.filtering ++ select.closing

/-- The statement of a select, refused at the first name that is no plain
identifier. -/
def statement (select : Select) : Except StoreError Statement := do
  select.names.forM checkIdentifier
  pure ⟨select.pieces, select.conditions.flatMap Condition.bound⟩

/-- Whether a condition is the constant false, so that no row is kept. -/
def keepsNothing (select : Select) : Bool :=
  select.conditions.any fun condition => condition.test = .oneOf []

/-- The first unknown column of a list of columns. -/
def unknownOf? (known : String → Bool) (columns : List (String × Nat)) : Option (String × Nat) :=
  columns.find? fun column => !known column.1

/-- The unknown column that conditions are refused for. Where it ends the lookup,
it is the first one. Otherwise the substring tests that follow at once are looked
at too, and it is the last unknown one among them. -/
def unknownAmong? (known : String → Bool) :
    List (Condition × (String × Nat)) → Option (String × Nat)
  | [] => none
  | (condition, column) :: rest =>
      if known column.1 then unknownAmong? known rest
      else if condition.endsLookup then some column
      else
        let next := (rest.takeWhile fun entry => entry.1.isPattern).map Prod.snd
        unknownOf? known (next.reverse ++ [column])

/-- The unknown column that a select is refused for, with its byte offset in the
text. The asked columns are looked up first, then those of the conditions, then
the one that rows are ordered by. Conditions beside a constant false are dropped
before. -/
def unknownColumn? (select : Select) (known : String → Bool) : Option (String × Nat) :=
  let afterHeading := Piece.size select.heading
  let afterFiltering := afterHeading + Piece.size select.filtering
  let filtering := select.conditions.zip (Piece.columnsFrom afterHeading select.filtering)
  unknownOf? known (Piece.columnsFrom 0 select.heading) <|>
    (if select.keepsNothing then none else unknownAmong? known filtering) <|>
      unknownOf? known (Piece.columnsFrom afterFiltering select.closing)

end Select

end ComicCatalog
