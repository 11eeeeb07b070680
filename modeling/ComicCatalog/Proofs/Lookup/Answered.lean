import ComicCatalog.Proofs.Lookup.Failures

/-! # Lookups with fixed answers

Where each select is always answered by the same rows, a lookup always has the same result,
whatever was asked before. The result of a sequence comes from those of its parts.
-/

namespace ComicCatalog

/-- The responder that answers each select by the rows that a function gives. -/
def Responder.always (answer : Select → List Record) : Responder Unit := fun select state =>
  (.ok (answer select), state)

theorem Responder.answer_always (answer : Select → List Record) (select : Select) (state : Unit) :
    (always answer select state).1 = .ok (answer select) :=
  rfl

namespace Lookup

variable {σ ε δ α β : Type} {answer : Select → List Record}

/-- The result of a lookup whose selects are answered by the rows that a function gives. -/
def found (answer : Select → List Record) : Lookup ε α → α
  | .done result => result
  | .count _ next => next.found answer
  | .ask select _ next => (next (answer select)).found answer

/-- Every run against fixed answers has this result. -/
theorem run_found {responder : Responder σ}
    (hanswer : ∀ select state, (responder select state).1 = .ok (answer select))
    (lookup : Lookup ε α) (state : σ) :
    (lookup.run responder state).result = .ok (lookup.found answer) := by
  induction lookup generalizing state with
  | done result => rfl
  | count counter next ih => exact ih state
  | ask select refuse next ih =>
      have hrows : responder select state = (.ok (answer select), (responder select state).2) :=
        Prod.ext (hanswer select state) rfl
      rw [run_ask_answered hrows]
      exact ih (answer select) _

@[simp]
theorem found_pure (result : α) : (pure result : Lookup ε α).found answer = result :=
  rfl

@[simp]
theorem found_fetch (select : Select) : (fetch select).found answer = answer select :=
  rfl

@[simp]
theorem found_bind (lookup : Lookup ε α) (rest : α → Lookup ε β) :
    (lookup >>= rest).found answer = (rest (lookup.found answer)).found answer := by
  induction lookup with
  | done result => rfl
  | count counter next ih => exact ih
  | ask select refuse next ih => exact ih (answer select)

@[simp]
theorem found_map (f : α → β) (lookup : Lookup ε α) :
    (f <$> lookup).found answer = f (lookup.found answer) :=
  found_bind lookup fun result => pure (f result)

@[simp]
theorem found_mapError (f : ε → δ) (lookup : Lookup ε α) :
    (lookup.mapError f).found answer = lookup.found answer := by
  induction lookup with
  | done result => rfl
  | count counter next ih => exact ih
  | ask select refuse next ih => exact ih (answer select)

theorem found_among (select : Select) (column : String) (values : List String) :
    (among select column values).found answer =
      (pieces values).flatMap fun piece => answer (select.filtered (.oneOf column piece)) := by
  unfold among
  induction pieces values with
  | nil => rfl
  | cons piece rest ih =>
      rw [amongPieces, found_bind, found_bind, found_fetch, found_pure, ih, List.flatMap_cons]

end Lookup

end ComicCatalog
