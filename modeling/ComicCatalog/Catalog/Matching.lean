import ComicCatalog.Lookup.Program
import ComicCatalog.Query.Criteria
import ComicCatalog.Work.Candidates

/-! # Matching works

Every field of a query resolves to the works that satisfy all of its values, and
a query is matched by the works that satisfy all of its fields. A facet value
that no name equals empties its field at once: no further value of the field is
looked up.
-/

namespace ComicCatalog

open Lookup

/-! ## Failures

A store failure met while a query is resolved is a failure of the search; met anywhere else it
stays a failure of the store. -/

/-- A failure while a query is resolved to works. -/
inductive SearchError
  | store (failure : StoreError)
  deriving DecidableEq, Repr, Inhabited

def SearchError.message : SearchError → String
  | .store failure => "Lookup failed: " ++ failure.message

/-- A failure of a listing or a search. -/
inductive CatalogError
  | store (failure : StoreError)
  | search (failure : SearchError)
  deriving DecidableEq, Repr, Inhabited

def CatalogError.message : CatalogError → String
  | .store failure => failure.message
  | .search failure => failure.message

/-! ## Facets -/

/-- The identifiers in a named column, rows without one left out. -/
def identsIn (column : String) (rows : List Record) : List Ident :=
  rows.filterMap fun row => Ident.inColumn? row column

namespace Facet

/-- The names that equal a value, up to case. -/
def nameSelect (facet : Facet) (value : String) : Select :=
  (Select.ofColumns facet.namesTable ["id"]).filtered (.equalsFolded "name" value)

/-- The works linked to any of the given names. -/
def worksLinkedTo (facet : Facet) (names : List Ident) : Lookup StoreError Candidates := do
  let links ← among (Select.ofColumns facet.linksTable ["manga_id"]) facet.linkColumn
    (names.map Ident.text)
  pure (.ofList (identsIn "manga_id" links))

/-- The works of each value in turn; none as soon as a value equals no name. -/
def setsOf (facet : Facet) : List String → Lookup StoreError (Option (List Candidates))
  | [] => pure (some [])
  | value :: rest => do
      let names ← fetch (facet.nameSelect value)
      match identsIn "id" names with
      | [] => do
          tick (.shortCircuit facet)
          pure none
      | idents => do
          let works ← facet.worksLinkedTo idents
          let sets ← setsOf facet rest
          pure (sets.map (works :: ·))

/-- The works that satisfy every value of a facet. -/
def candidates (facet : Facet) (values : List String) : Lookup StoreError (Option Candidates) := do
  match ← facet.setsOf values with
  | none => pure (some .empty)
  | some sets => pure (Candidates.meet sets)

end Facet

/-- Works whose title contains a phrase, up to case. -/
def titleSelect (phrase : String) : Select :=
  (Select.ofColumns "manga" ["id"]).filtered (.contains "title" phrase)

/-- The title values form one phrase, with single spaces between them. -/
def titleCandidates (values : List String) : Lookup StoreError Candidates := do
  let rows ← fetch (titleSelect (" ".intercalate values))
  pure (.ofList (identsIn "id" rows))

/-- Identifiers are taken as they are typed; different ones exclude each other. -/
def idCandidates (values : List String) : Option Candidates :=
  Candidates.meet (values.map fun value => .ofList [Ident.ofText value])

/-- The works that satisfy every value of a field; none when the field has no
value and so takes no part. -/
def Field.candidates (field : Field) (values : List String) :
    Lookup SearchError (Option Candidates) :=
  if values.isEmpty then pure none
  else
    match field with
    | .facet kind => (kind.candidates values).mapError .store
    | .title => (some <$> titleCandidates values).mapError .store
    | .id => pure (idCandidates values)

namespace Criteria

/-- The candidates of the given fields, looked up one after the other. -/
def candidatesOf (criteria : Criteria) :
    List Field → Lookup SearchError (List (Option Candidates))
  | [] => pure []
  | field :: rest => do
      let first ← field.candidates (criteria.values field)
      let others ← candidatesOf criteria rest
      pure (first :: others)

/-- The works that satisfy every field, sorted by identifier. Without any value
there are none. -/
def works (criteria : Criteria) : Lookup SearchError (List Ident) := do
  let sets ← criteria.candidatesOf Field.all
  match Candidates.meetPresent sets with
  | some set => pure set.ids
  | none => pure []

end Criteria

end ComicCatalog
