import ComicCatalog.Work.Ident

/-! # Candidate sets

The works that satisfy one field of a query, as a list of identifiers sorted by
text without repeats. Fields are combined by intersection, and a field without
values takes no part in it, which is not the same as an empty set.
-/

namespace ComicCatalog

/-- A set of works, as their identifiers sorted by text. -/
structure Candidates where
  ids : List Ident
  deriving DecidableEq, Repr, Inhabited

namespace Candidates

def empty : Candidates := ⟨[]⟩

/-- Drop an identifier that is repeated by its successor. -/
def dropRepeats : List Ident → List Ident
  | [] => []
  | [id] => [id]
  | id :: next :: rest =>
      if id = next then dropRepeats (next :: rest) else id :: dropRepeats (next :: rest)

/-- The set of the given identifiers. -/
def ofList (ids : List Ident) : Candidates :=
  ⟨dropRepeats (ids.mergeSort fun a b => a.text ≤ b.text)⟩

def isEmpty (set : Candidates) : Bool :=
  set.ids.isEmpty

def size (set : Candidates) : Nat :=
  set.ids.length

def contains (set : Candidates) (id : Ident) : Bool :=
  set.ids.contains id

/-- The works of both sets. -/
def inter (left right : Candidates) : Candidates :=
  ⟨left.ids.filter right.contains⟩

/-- Intersect `first` with every further set, until nothing is left. -/
def interAll (first : Candidates) : List Candidates → Candidates
  | [] => first
  | next :: rest => if first.isEmpty then first else interAll (first.inter next) rest

/-- The works of every set; none when there is no set. -/
def meet : List Candidates → Option Candidates
  | [] => none
  | first :: rest => some (interAll first rest)

/-- The works of every set that is present; none when no set is. -/
def meetPresent (sets : List (Option Candidates)) : Option Candidates :=
  meet (sets.filterMap id)

end Candidates

end ComicCatalog
