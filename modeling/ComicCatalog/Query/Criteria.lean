import ComicCatalog.Query.Field
import ComicCatalog.Query.Term

/-! # Search criteria

What a query asks for: a list of values, each scoped to a field, in the order in
which the query gives them. A term with several values between percent signs
contributes each of them, and a term without a known key contributes title text.
-/

namespace ComicCatalog

/-- The values a query asks for, each with its field, in query order. -/
structure Criteria where
  entries : List (Field × String)
  deriving DecidableEq, Repr, Inhabited

namespace Criteria

def empty : Criteria := ⟨[]⟩

/-- Append one value as it is. Empty values ask for nothing and are left out. -/
def push (criteria : Criteria) (field : Field) (value : String) : Criteria :=
  if value.isEmpty then criteria else ⟨criteria.entries ++ [(field, value)]⟩

/-- The values asked of one field. -/
def values (criteria : Criteria) (field : Field) : List String :=
  (criteria.entries.filter fun entry => entry.1 == field).map Prod.snd

/-- The fields that carry a value, in field order. -/
def fields (criteria : Criteria) : List Field :=
  Field.all.filter fun field => !(criteria.values field).isEmpty

/-- Whether nothing is asked for. -/
def isEmpty (criteria : Criteria) : Bool :=
  criteria.entries.isEmpty

/-- The normal form of one value: trimmed, then lowercase. -/
def normal (value : List Char) : String :=
  String.ofList (Text.foldList (Text.strip Text.isBlank value))

/-- The values of a scoped term: strip its quotes, cut at percent signs. -/
def parts (value : String) : List String :=
  ((Text.strip (· == '"') value.toList).splitOn '%').map normal

/-- What one term asks for. An unknown key makes the whole term title text. -/
def ofTerm (term : Term) : List (Field × String) :=
  match term.key with
  | none => (parts term.value).map (Field.title, ·)
  | some name =>
      match Field.named? name with
      | some field => (parts term.value).map (field, ·)
      | none => [(Field.title, normal term.raw.toList)]

/-- What a list of terms asks for. -/
def ofTerms (terms : List Term) : Criteria :=
  ⟨(terms.flatMap ofTerm).filter fun entry => !entry.2.isEmpty⟩

/-- What a query text asks for. -/
def ofQuery (query : String) : Criteria :=
  ofTerms (Term.scan query)

end Criteria

end ComicCatalog
