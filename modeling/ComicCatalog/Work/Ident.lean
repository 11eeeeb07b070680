import ComicCatalog.Json.Value
import ComicCatalog.Number.Binary64
import ComicCatalog.Text.Basic

/-! # Identifiers

A stored row, be it a work or the name of a tag, is identified by a text. Stores
hand identifiers back as numbers or as texts, and users type them; a whole number
has one spelling, so that `id:042` and the stored number 42 name the same work.
-/

namespace ComicCatalog

/-- The text that identifies a row. -/
structure Ident where
  text : String
  deriving DecidableEq, Repr, Inhabited, Hashable

namespace Ident

/-- The identifier a column value gives. Only numbers and texts are
identifiers. -/
def ofJson? : Json → Option Ident
  | .number n => some ⟨n.text⟩
  | .text s => some ⟨s⟩
  | _ => none

/-- The whole number that decimal digits spell. -/
def digits? (cs : List Char) : Option Nat :=
  if cs.isEmpty || !cs.all Char.isDigit then none
  else some (cs.foldl (fun n c => n * 10 + (c.toNat - 48)) 0)

/-- The whole number of 64 bits that a text spells, with an optional sign. -/
def integer? (cs : List Char) : Option Int :=
  let signed : Option Int :=
    match cs with
    | '-' :: rest => (digits? rest).map fun n => -(n : Int)
    | '+' :: rest => (digits? rest).map fun n => (n : Int)
    | cs => (digits? cs).map fun n => (n : Int)
  signed.filter Word.isSigned

/-- The identifier a user means: trimmed, and rewritten when it is a number. -/
def ofText (s : String) : Ident :=
  let cs := Text.strip Text.isBlank s.toList
  match integer? cs with
  | some n => ⟨toString n⟩
  | none => ⟨String.ofList cs⟩

/-- The identifier in a named column of a row. -/
def inColumn? (row : Record) (column : String) : Option Ident :=
  (row.get? column).bind ofJson?

end Ident

end ComicCatalog
