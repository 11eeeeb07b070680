import ComicCatalog.Query.Field

/-! # Counters

What the catalog counts while it works: how searches ended, fields emptied by a
value without a name, how relayed fetches ended, and answered requests by their
labels. A tally is the list of everything counted so far.
-/

namespace ComicCatalog

/-- How a search ended. -/
inductive SearchOutcome
  | matched
  | noMatch
  | emptyQuery
  | error
  deriving DecidableEq, Repr, Inhabited

def SearchOutcome.label : SearchOutcome → String
  | .matched => "matched"
  | .noMatch => "no_match"
  | .emptyQuery => "empty_query"
  | .error => "error"

/-- How a relayed fetch ended. -/
inductive FetchOutcome
  | success
  | unsuccessful
  | failed
  deriving DecidableEq, Repr, Inhabited

def FetchOutcome.label : FetchOutcome → String
  | .success => "success"
  | .unsuccessful => "upstream_error"
  | .failed => "failed"

/-- Something that is counted. -/
inductive Counter
  | search (outcome : SearchOutcome)
  | shortCircuit (facet : Facet)
  | fetch (outcome : FetchOutcome)
  | request (method path : String) (status : Nat)
  deriving DecidableEq, Repr, Inhabited

/-- Everything counted so far, oldest first. -/
abbrev Tally := List Counter

end ComicCatalog
