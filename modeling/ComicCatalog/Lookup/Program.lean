import ComicCatalog.Lookup.Counter
import ComicCatalog.Store.Error
import ComicCatalog.Store.Select

/-! # Lookups

A lookup is a computation that may ask selects, one after the other, each
depending on the rows it has seen. It says nothing about who answers: a run
against a responder gives the result, every select that was asked, and everything
that was counted on the way. A refused select ends the run with that refusal.
-/

namespace ComicCatalog

/-- A computation of an `α` that asks selects. A refused select ends it with the
failure that `refuse` makes of the store's own. -/
inductive Lookup (ε α : Type) : Type
  | done (result : α)
  | count (counter : Counter) (next : Lookup ε α)
  | ask (select : Select) (refuse : StoreError → ε) (next : List Record → Lookup ε α)

namespace Lookup

variable {ε δ α β : Type}

/-- Continue with the result of a lookup. -/
protected def bind : Lookup ε α → (α → Lookup ε β) → Lookup ε β
  | .done result, rest => rest result
  | .count counter next, rest => .count counter (next.bind rest)
  | .ask select refuse next, rest => .ask select refuse fun rows => (next rows).bind rest

instance : Monad (Lookup ε) where
  pure := .done
  bind := Lookup.bind

/-- Read every failure of a lookup as a failure of another kind. -/
def mapError (f : ε → δ) : Lookup ε α → Lookup δ α
  | .done result => .done result
  | .count counter next => .count counter (next.mapError f)
  | .ask select refuse next => .ask select (fun failure => f (refuse failure))
      fun rows => (next rows).mapError f

/-- Ask one select. -/
def fetch (select : Select) : Lookup StoreError (List Record) :=
  .ask select id .done

/-- Count something. -/
def tick (counter : Counter) : Lookup ε Unit :=
  .count counter (.done ())

end Lookup

/-- Someone who answers selects, with a state that an answer may change. -/
abbrev Responder (σ : Type) := Select → σ → Except StoreError (List Record) × σ

/-- What a run of a lookup leaves behind. -/
structure Run (σ ε α : Type) where
  result : Except ε α
  /-- The selects that were asked, in order; a refused one is the last. -/
  asked : List Select
  counted : Tally
  state : σ

namespace Lookup

variable {σ ε α : Type}

/-- Run a lookup against a responder. -/
def run (responder : Responder σ) : Lookup ε α → σ → Run σ ε α
  | .done result, state => ⟨.ok result, [], [], state⟩
  | .count counter next, state =>
      let rest := next.run responder state
      { rest with counted := counter :: rest.counted }
  | .ask select refuse next, state =>
      match responder select state with
      | (.error failure, state) => ⟨.error (refuse failure), [select], [], state⟩
      | (.ok rows, state) =>
          let rest := (next rows).run responder state
          { rest with asked := select :: rest.asked }

/-! ## Rows among many values

A select takes a bounded list of values in a membership condition. A longer list
is cut into pieces that are asked one after the other; an empty list asks
nothing. -/

/-- The most values in one membership condition. -/
def maxAmong : Nat := 500

/-- Cut a list into pieces of `maxAmong` values; the last may be shorter. -/
def pieces {α : Type} : List α → List (List α)
  | [] => []
  | value :: rest => (value :: rest.take (maxAmong - 1)) :: pieces (rest.drop (maxAmong - 1))
termination_by values => values.length
decreasing_by
  simp only [List.length_drop, List.length_cons]
  omega

/-- The rows of a select whose column equals one of the values of some piece. -/
def amongPieces (select : Select) (column : String) :
    List (List String) → Lookup StoreError (List Record)
  | [] => pure []
  | piece :: rest => do
      let rows ← fetch (select.filtered (.oneOf column piece))
      let more ← amongPieces select column rest
      pure (rows ++ more)

/-- The rows of a select whose column equals one of the values. -/
def among (select : Select) (column : String) (values : List String) :
    Lookup StoreError (List Record) :=
  amongPieces select column (pieces values)

end Lookup

end ComicCatalog
