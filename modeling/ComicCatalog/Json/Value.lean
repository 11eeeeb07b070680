import ComicCatalog.Number.Layout

/-! # JSON values and records

Stored rows, listed works and requests are all JSON. A number is either a whole
number or a binary floating-point number, and the two never mix: `1` and `1.0`
are different values with different texts. A record is a list of named values
in which no name occurs twice.
-/

namespace ComicCatalog

/-- A JSON number. -/
inductive JsonNumber
  | whole (n : Int)
  | real (x : Binary64)
  deriving DecidableEq, Repr, Inhabited

/-- The text of a number. -/
def JsonNumber.text : JsonNumber → String
  | .whole n => toString n
  | .real x => x.jsonText

/-- A JSON value. -/
inductive Json
  | null
  | bool (b : Bool)
  | number (n : JsonNumber)
  | text (s : String)
  | array (items : List Json)
  | object (fields : List (String × Json))
  deriving Inhabited

namespace Json

/-- A whole number as a value. -/
def ofInt (n : Int) : Json :=
  .number (.whole n)

/-- A count as a value. -/
def ofNat (n : Nat) : Json :=
  .number (.whole n)

/-- A list of texts as a value. -/
def ofTexts (texts : List String) : Json :=
  .array (texts.map .text)

/-- The text of a text value. -/
def text? : Json → Option String
  | .text s => some s
  | _ => none

end Json

/-- Named values; every operation keeps the names distinct. -/
abbrev Record := List (String × Json)

namespace Record

/-- The value of a name. -/
def get? (record : Record) (name : String) : Option Json :=
  record.lookup name

/-- Give a name a value, in its place if the name is there already. -/
def set : Record → String → Json → Record
  | [], name, value => [(name, value)]
  | (other, old) :: rest, name, value =>
      if other = name then (name, value) :: rest else (other, old) :: set rest name value

/-- Remove a name. -/
def erase (record : Record) (name : String) : Record :=
  record.filter fun field => field.1 != name

/-- The record of a list of pairs; of two values for one name the later stays. -/
def ofPairs (pairs : List (String × Json)) : Record :=
  pairs.foldl (fun record pair => record.set pair.1 pair.2) []

theorem set_of_not_mem {record : Record} {name : String} (value : Json)
    (hname : name ∉ record.map Prod.fst) : record.set name value = record ++ [(name, value)] := by
  induction record with
  | nil => rfl
  | cons field rest ih =>
      obtain ⟨other, old⟩ := field
      have hne : other ≠ name := fun heq => hname (by simp [heq])
      rw [set, if_neg hne, ih fun hmem => hname (List.mem_cons_of_mem _ hmem)]
      rfl

end Record

end ComicCatalog
