import ComicCatalog.Catalog.Annotation

/-! # Listings

A listing shows works up to a page size, perhaps of some languages only, in the
order of a stored column or of the first artist. The artist order is not known
to the store, so it is brought about after annotation.
-/

namespace ComicCatalog

/-- What a listing is ordered by. -/
inductive SortKey
  | column (name : String)
  | artist
  deriving DecidableEq, Repr, Inhabited

/-- The key a `sortBy` parameter asks for; a blank one asks for none. -/
def SortKey.ofParam? (value : Option String) : Option SortKey :=
  (value.map Text.trim).bind fun name =>
    if name.isEmpty then none
    else if name = "Artist" then some .artist
    else some (.column name)

/-- What a listing is asked for. -/
structure ListingRequest where
  sortKey : Option SortKey
  direction : Direction
  /-- Lowercase language codes; without any, every language is listed. -/
  languages : List String
  deriving DecidableEq, Repr, Inhabited

namespace ListingRequest

/-- The language codes of a comma-separated parameter, in normal form. -/
def languagesOfParam (value : Option String) : List String :=
  match value with
  | none => []
  | some codes => ((codes.toList.splitOn ',').map Criteria.normal).filter fun code => !code.isEmpty

/-- The listing that the parameters `sortBy`, `order` and `language` ask for. -/
def ofParams (sortBy order language : Option String) : ListingRequest where
  sortKey := SortKey.ofParam? sortBy
  direction := Direction.ofParam order
  languages := languagesOfParam language

/-- The select behind a listing. -/
def select (request : ListingRequest) (pageSize : Nat) : Select :=
  let base := (Select.all "manga").limited pageSize
  let base :=
    if request.languages.isEmpty then base
    else base.filtered (.oneOfFolded "language" request.languages)
  match request.sortKey with
  | some (.column name) => base.ordered name request.direction
  | _ => base

/-- The entries of a listing in its order. -/
def arrange (request : ListingRequest) (entries : List Entry) : List Entry :=
  match request.sortKey with
  | some .artist => Entry.sortByArtist request.direction entries
  | _ => entries

/-- Look a listing up. -/
def entries (request : ListingRequest) (pageSize : Nat) : Lookup CatalogError (List Entry) :=
  (do
    let rows ← Lookup.fetch (request.select pageSize)
    let entries ← annotate rows
    pure (request.arrange entries) : Lookup StoreError (List Entry)).mapError .store

end ListingRequest

end ComicCatalog
