import ComicCatalog.Catalog.Annotation

/-! # Searches

A search resolves a query to works and shows them like a listing does. Every
search is counted once, by how it ended.
-/

namespace ComicCatalog

namespace Search

/-- The rows of the given works. -/
def rowsOf (works : List Ident) : Lookup StoreError (List Record) :=
  Lookup.among (Select.all "manga") "id" (works.map Ident.text)

/-- The entries of the given works. -/
def entriesOf (works : List Ident) : Lookup StoreError (List Entry) := do
  let rows ← rowsOf works
  annotate rows

/-- The entries that satisfy a query; none when the query asks for nothing. -/
def entries? (query : String) : Lookup CatalogError (Option (List Entry)) :=
  let criteria := Criteria.ofQuery query
  if criteria.isEmpty then pure none
  else do
    let works ← criteria.works.mapError .search
    match works with
    | [] => pure (some [])
    | works => some <$> (entriesOf works).mapError .store

/-- How a search ended. -/
def outcome : Except CatalogError (Option (List Entry)) → SearchOutcome
  | .ok (some (_ :: _)) => .matched
  | .ok (some []) => .noMatch
  | .ok none => .emptyQuery
  | .error _ => .error

end Search

/-- Search for a query, and count the search. -/
def search {σ : Type} (responder : Responder σ) (query : String) (state : σ) :
    Run σ CatalogError (List Entry) :=
  let run := (Search.entries? query).run responder state
  { result := run.result.map fun found => found.getD []
    asked := run.asked
    counted := run.counted ++ [.search (Search.outcome run.result)]
    state := run.state }

end ComicCatalog
