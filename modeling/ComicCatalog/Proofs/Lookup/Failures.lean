import ComicCatalog.Lookup.Program
import ComicCatalog.Lookup.Source
import Mathlib.Data.List.Basic

/-! # Runs that meet a failure

A run of any lookup ends at the first select that is refused, with the failure that the
lookup makes of that refusal, and it ends in no other way without a result. A fault on one
table cuts a run off at the first select that asks this table and is not seen by any other
run. What a lookup makes of refusals is all that is left to say of each operation.
-/

namespace ComicCatalog

namespace Responder

variable {σ : Type}

/-- What selects are answered that are asked one after the other. -/
def answers (responder : Responder σ) : List Select → σ → List (Except StoreError (List Record))
  | [], _ => []
  | select :: rest, state =>
      (responder select state).1 :: answers responder rest (responder select state).2

/-- The responder with a fault on one table. -/
def failingOn (table : String) (responder : Responder σ) : Responder σ := fun select state =>
  if select.table = table then (.error (Source.simulatedFault table), state)
  else responder select state

end Responder

namespace Lookup

variable {σ ε δ α β : Type}

/-- The failure that a lookup ends with where some selects are answered and the next one is
refused; none if it does not ask another. -/
def refusal : Lookup ε α → List (List Record) → StoreError → Option ε
  | .done _, _, _ => none
  | .count _ next, answered, failure => next.refusal answered failure
  | .ask _ refuse _, [], failure => some (refuse failure)
  | .ask _ _ next, rows :: answered, failure => (next rows).refusal answered failure

/-! ## Runs -/

variable {responder : Responder σ} {select : Select} {refuse : StoreError → ε}
  {next : List Record → Lookup ε α} {state after : σ}

theorem run_ask_refused {failure : StoreError} (hanswer : responder select state = (.error failure, after)) :
    (ask select refuse next).run responder state = ⟨.error (refuse failure), [select], [], after⟩ := by
  rw [run, hanswer]

theorem run_ask_answered {rows : List Record} (hanswer : responder select state = (.ok rows, after)) :
    (ask select refuse next).run responder state =
      { (next rows).run responder after with asked := select :: ((next rows).run responder after).asked } := by
  rw [run, hanswer]

theorem exists_asked_ask (responder : Responder σ) (select : Select) (refuse : StoreError → ε)
    (next : List Record → Lookup ε α) (state : σ) :
    ∃ rest, ((ask select refuse next).run responder state).asked = select :: rest := by
  rcases hanswer : responder select state with ⟨failure | rows, after⟩
  · exact ⟨[], by rw [run_ask_refused hanswer]⟩
  · exact ⟨_, by rw [run_ask_answered hanswer]⟩

/-- A run has a result where no select is ever refused. -/
theorem exists_result_of_answered
    (hanswers : ∀ select state, ∃ rows, (responder select state).1 = .ok rows)
    (lookup : Lookup ε α) (state : σ) :
    ∃ result, (lookup.run responder state).result = .ok result := by
  induction lookup generalizing state with
  | done result => exact ⟨result, rfl⟩
  | count counter next ih => exact ih state
  | ask select refuse next ih =>
      obtain ⟨rows, hrows⟩ := hanswers select state
      have hanswer : responder select state = (.ok rows, (responder select state).2) :=
        Prod.ext hrows rfl
      rw [run_ask_answered hanswer]
      exact ih rows _

/-- A run has a result of which all selects were answered, or fails at the last one. -/
theorem run_answers (lookup : Lookup ε α) (responder : Responder σ) (state : σ) :
    ∃ answered : List (List Record),
      ((∃ result, (lookup.run responder state).result = .ok result) ∧
        responder.answers (lookup.run responder state).asked state = answered.map .ok) ∨
      ∃ failure error, (lookup.run responder state).result = .error error ∧
        lookup.refusal answered failure = some error ∧
        responder.answers (lookup.run responder state).asked state =
          answered.map .ok ++ [.error failure] := by
  induction lookup generalizing state with
  | done result => exact ⟨[], Or.inl ⟨⟨result, rfl⟩, rfl⟩⟩
  | count counter next ih => exact ih state
  | ask select refuse next ih =>
      rcases hanswer : responder select state with ⟨failure | rows, after⟩
      · rw [run_ask_refused hanswer]
        exact ⟨[], Or.inr ⟨failure, _, rfl, rfl, by simp [Responder.answers, hanswer]⟩⟩
      · rw [run_ask_answered hanswer]
        obtain ⟨answered, hrest⟩ := ih rows after
        refine ⟨rows :: answered, hrest.imp ?_ ?_⟩
        · rintro ⟨hresult, hanswers⟩
          exact ⟨hresult, by simp [Responder.answers, hanswer, hanswers]⟩
        · rintro ⟨failure, error, hresult, hrefusal, hanswers⟩
          exact ⟨failure, error, hresult, hrefusal, by simp [Responder.answers, hanswer, hanswers]⟩

/-! ## Faults on a table -/

theorem run_failingOn_of_unasked (lookup : Lookup ε α) (responder : Responder σ) (state : σ)
    {table : String} (hasked : ∀ select ∈ (lookup.run responder state).asked, select.table ≠ table) :
    lookup.run (responder.failingOn table) state = lookup.run responder state := by
  induction lookup generalizing state with
  | done result => rfl
  | count counter next ih => rw [run, run, ih state hasked]
  | ask select refuse next ih =>
      obtain ⟨others, hothers⟩ := exists_asked_ask responder select refuse next state
      have hselect : select.table ≠ table := hasked select (by simp [hothers])
      have hsame : responder.failingOn table select state = responder select state :=
        if_neg hselect
      rcases hanswer : responder select state with ⟨failure | rows, after⟩
      · rw [run_ask_refused hanswer, run_ask_refused (hsame.trans hanswer)]
      · rw [run_ask_answered hanswer] at hasked
        rw [run_ask_answered hanswer, run_ask_answered (hsame.trans hanswer)]
        rw [ih rows after fun other hother => hasked other (List.mem_cons_of_mem select hother)]

/-- The fault is met at the first select on its table. -/
theorem run_failingOn_of_asked (lookup : Lookup ε α) (responder : Responder σ) (state : σ)
    {before after : List Select} {select : Select}
    (hasked : (lookup.run responder state).asked = before ++ select :: after)
    (hbefore : ∀ other ∈ before, other.table ≠ select.table) :
    (lookup.run (responder.failingOn select.table) state).asked = before ++ [select] ∧
      ∃ answered error,
        (lookup.run (responder.failingOn select.table) state).result = .error error ∧
        lookup.refusal answered (Source.simulatedFault select.table) = some error := by
  induction lookup generalizing state before with
  | done result => cases before <;> cases hasked
  | count counter next ih => exact ih state hasked hbefore
  | ask first refuse next ih =>
      cases before with
      | nil =>
          -- The first select is the one whose table fails.
          obtain ⟨others, hothers⟩ := exists_asked_ask responder first refuse next state
          rw [hothers] at hasked
          obtain ⟨rfl, -⟩ := List.cons.inj hasked
          have hfault : responder.failingOn first.table first state =
              (.error (Source.simulatedFault first.table), state) := if_pos rfl
          rw [run_ask_refused hfault]
          exact ⟨rfl, [], _, rfl, rfl⟩
      | cons other rest =>
          rcases hanswer : responder first state with ⟨failure | rows, later⟩
          · rw [run_ask_refused hanswer] at hasked
            simp at hasked
          · rw [run_ask_answered hanswer] at hasked
            obtain ⟨rfl, hrest⟩ := List.cons.inj hasked
            -- Its table is another one, so it is answered as it was.
            have hsame : responder.failingOn select.table first state = (.ok rows, later) :=
              (if_neg (hbefore first List.mem_cons_self)).trans hanswer
            obtain ⟨hasked', answered, hfailed⟩ := ih rows later hrest
              fun third hthird => hbefore third (List.mem_cons_of_mem first hthird)
            rw [run_ask_answered hsame]
            exact ⟨congrArg (first :: ·) hasked', rows :: answered, hfailed⟩

/-- A faulty source answers as its inner source with the fault. -/
theorem run_faulty (lookup : Lookup ε α) (table : String) (inner : Source) :
    lookup.run Source.respond (.faulty table inner) =
      { lookup.run (Responder.failingOn table Source.respond) inner with
        state := .faulty table (lookup.run (Responder.failingOn table Source.respond) inner).state } := by
  induction lookup generalizing inner with
  | done result => rfl
  | count counter next ih => simp only [run, ih]
  | ask select refuse next ih =>
      have hrespond : Source.respond select (.faulty table inner) =
          ((Responder.failingOn table Source.respond select inner).1,
            .faulty table (Responder.failingOn table Source.respond select inner).2) := by
        rw [Source.respond, Responder.failingOn]
        split <;> rfl
      rcases hanswer : Responder.failingOn table Source.respond select inner with
        ⟨failure | rows, after⟩
      · rw [hanswer] at hrespond
        rw [run_ask_refused hrespond, run_ask_refused hanswer]
      · rw [hanswer] at hrespond
        rw [run_ask_answered hrespond, run_ask_answered hanswer, ih rows after]

/-! ## Sequences -/

@[simp]
theorem run_mapError (f : ε → δ) (lookup : Lookup ε α) (responder : Responder σ) (state : σ) :
    (lookup.mapError f).run responder state =
      ⟨(lookup.run responder state).result.mapError f, (lookup.run responder state).asked,
        (lookup.run responder state).counted, (lookup.run responder state).state⟩ := by
  induction lookup generalizing state with
  | done result => rfl
  | count counter next ih => simp only [mapError, run, ih]
  | ask select refuse next ih =>
      rcases hanswer : responder select state with ⟨failure | rows, after⟩
      · rw [mapError, run_ask_refused hanswer, run_ask_refused hanswer]
        rfl
      · rw [mapError, run_ask_answered hanswer, run_ask_answered hanswer, ih rows after]

/-- A sequence ends where its first part fails. -/
theorem run_bind_of_error {lookup : Lookup ε α} {error : ε}
    (herror : (lookup.run responder state).result = .error error) (rest : α → Lookup ε β) :
    ((lookup >>= rest).run responder state).result = .error error ∧
      ((lookup >>= rest).run responder state).asked = (lookup.run responder state).asked := by
  induction lookup generalizing state with
  | done result => cases herror
  | count counter next ih => exact ih herror
  | ask select refuse next ih =>
      show ((ask select refuse fun rows => next rows >>= rest).run responder state).result = _ ∧
        ((ask select refuse fun rows => next rows >>= rest).run responder state).asked = _
      rcases hanswer : responder select state with ⟨failure | rows, after⟩
      · rw [run_ask_refused hanswer] at herror
        rw [run_ask_refused hanswer, run_ask_refused hanswer]
        cases herror
        exact ⟨rfl, rfl⟩
      · rw [run_ask_answered hanswer] at herror
        rw [run_ask_answered hanswer, run_ask_answered hanswer]
        obtain ⟨hresult, hasked⟩ := ih rows herror
        exact ⟨hresult, congrArg (select :: ·) hasked⟩

theorem run_bind_of_ok {lookup : Lookup ε α} {found : α}
    (hfound : (lookup.run responder state).result = .ok found) (rest : α → Lookup ε β) :
    ((lookup >>= rest).run responder state).result =
      ((rest found).run responder (lookup.run responder state).state).result := by
  induction lookup generalizing state with
  | done result =>
      cases hfound
      rfl
  | count counter next ih => exact ih hfound
  | ask select refuse next ih =>
      show ((ask select refuse fun rows => next rows >>= rest).run responder state).result = _
      rcases hanswer : responder select state with ⟨failure | rows, after⟩
      · rw [run_ask_refused hanswer] at hfound
        cases hfound
      · rw [run_ask_answered hanswer] at hfound
        rw [run_ask_answered hanswer, run_ask_answered hanswer]
        exact ih rows hfound

end Lookup

/-! ## Operations -/

/-- What runs against any responder. -/
abbrev Operation (ε α : Type) :=
  (σ : Type) → Responder σ → σ → Run σ ε α

def Lookup.operation {ε α : Type} (lookup : Lookup ε α) : Operation ε α :=
  fun _ responder state => lookup.run responder state

/-- An operation stops at the first select that is refused, and tells of it as `wraps`
says. -/
structure StopsAtFailure {ε α : Type} (operation : Operation ε α) (wraps : StoreError → ε → Prop) :
    Prop where
  fails_iff : ∀ {σ : Type} (responder : Responder σ) (state : σ),
    (∃ error, (operation σ responder state).result = .error error) ↔
      ∃ failure, .error failure ∈ responder.answers (operation σ responder state).asked state
  /-- The refused select is the last one, and the failure is made of its refusal. -/
  refused_last : ∀ {σ : Type} (responder : Responder σ) (state : σ) (error : ε),
    (operation σ responder state).result = .error error →
      ∃ (answered : List (List Record)) (failure : StoreError),
        responder.answers (operation σ responder state).asked state =
          answered.map .ok ++ [.error failure] ∧ wraps failure error
  /-- A fault on a table that is never asked changes nothing. -/
  fault_unasked : ∀ {σ : Type} (responder : Responder σ) (state : σ) (table : String),
    (∀ select ∈ (operation σ responder state).asked, select.table ≠ table) →
      operation σ (responder.failingOn table) state = operation σ responder state
  /-- A fault on a table ends the operation at the first select on that table. -/
  fault_asked : ∀ {σ : Type} (responder : Responder σ) (state : σ) (before : List Select)
    (select : Select) (after : List Select),
    (operation σ responder state).asked = before ++ select :: after →
      (∀ other ∈ before, other.table ≠ select.table) →
        (operation σ (responder.failingOn select.table) state).asked = before ++ [select] ∧
          ∃ error, (operation σ (responder.failingOn select.table) state).result = .error error ∧
            wraps (Source.simulatedFault select.table) error
  /-- A faulty source is its inner source with a fault. -/
  faulty_source : ∀ (table : String) (inner : Source),
    (operation Source Source.respond (.faulty table inner)).result =
        (operation Source (Responder.failingOn table Source.respond) inner).result ∧
      (operation Source Source.respond (.faulty table inner)).asked =
        (operation Source (Responder.failingOn table Source.respond) inner).asked

/-- Every lookup stops at the first select that is refused, and a fault on a table is such a
refusal. -/
theorem Lookup.stopsAtFailure {ε α : Type} (lookup : Lookup ε α) :
    StopsAtFailure lookup.operation fun failure error =>
      ∃ answered, lookup.refusal answered failure = some error where
  fails_iff responder state := by
    unfold Lookup.operation
    obtain ⟨answered, ⟨⟨result, hresult⟩, hanswers⟩ | ⟨failure, error, hresult, -, hanswers⟩⟩ :=
      lookup.run_answers responder state
    · simp [hresult, hanswers]
    · simp [hresult, hanswers]
  refused_last responder state error herror := by
    unfold Lookup.operation at herror ⊢
    obtain ⟨answered, ⟨⟨result, hresult⟩, -⟩ | ⟨failure, other, hresult, hrefusal, hanswers⟩⟩ :=
      lookup.run_answers responder state
    · rw [hresult] at herror
      cases herror
    · rw [hresult] at herror
      cases herror
      exact ⟨answered, failure, hanswers, answered, hrefusal⟩
  fault_unasked responder state table hasked := run_failingOn_of_unasked lookup responder state hasked
  fault_asked responder state before select after hasked hbefore := by
    obtain ⟨hasked', answered, error, herror, hrefusal⟩ :=
      lookup.run_failingOn_of_asked responder state hasked hbefore
    exact ⟨hasked', error, herror, answered, hrefusal⟩
  faulty_source table inner := by
    unfold Lookup.operation
    rw [run_faulty]
    exact ⟨rfl, rfl⟩

namespace StopsAtFailure

variable {ε α β : Type} {operation : Operation ε α} {wraps : StoreError → ε → Prop}

theorem mono (hstops : StopsAtFailure operation wraps) {weaker : StoreError → ε → Prop}
    (hweaker : ∀ failure error, wraps failure error → weaker failure error) :
    StopsAtFailure operation weaker where
  fails_iff := hstops.fails_iff
  refused_last responder state error herror := by
    obtain ⟨answered, failure, hanswers, hwraps⟩ := hstops.refused_last responder state error herror
    exact ⟨answered, failure, hanswers, hweaker failure error hwraps⟩
  fault_unasked := hstops.fault_unasked
  fault_asked responder state before select after hasked hbefore := by
    obtain ⟨hasked', error, herror, hwraps⟩ :=
      hstops.fault_asked responder state before select after hasked hbefore
    exact ⟨hasked', error, herror, hweaker _ error hwraps⟩
  faulty_source := hstops.faulty_source

/-- What is made of the result of a run, and what is counted of it, is all the same for where it
stops. -/
theorem after (hstops : StopsAtFailure operation wraps) (f : α → β)
    (finish : (σ : Type) → Run σ ε α → Run σ ε β)
    (hresult : ∀ σ run, (finish σ run).result = run.result.map f)
    (hasked : ∀ σ run, (finish σ run).asked = run.asked) :
    StopsAtFailure (fun σ responder state => finish σ (operation σ responder state)) wraps := by
  have herror : ∀ {σ : Type} (run : Run σ ε α) (error : ε),
      (finish σ run).result = .error error ↔ run.result = .error error := by
    intro σ run error
    rw [hresult]
    cases run.result <;> simp [Except.map]
  constructor
  · intro σ responder state
    simp only [herror, hasked]
    exact hstops.fails_iff responder state
  · intro σ responder state error hfailed
    rw [hasked]
    exact hstops.refused_last responder state error ((herror _ error).mp hfailed)
  · intro σ responder state table hunasked
    simp only [hasked] at hunasked
    simp only [hstops.fault_unasked responder state table hunasked]
  · intro σ responder state before select after hselect hbefore
    rw [hasked] at hselect
    obtain ⟨hasked', error, hfailed, hwraps⟩ :=
      hstops.fault_asked responder state before select after hselect hbefore
    rw [hasked]
    exact ⟨hasked', error, (herror _ error).mpr hfailed, hwraps⟩
  · intro table inner
    obtain ⟨hsame, hsameAsked⟩ := hstops.faulty_source table inner
    simp only [hresult, hasked, hsame, hsameAsked, and_self]

end StopsAtFailure

namespace Lookup

variable {ε δ α β : Type}

/-! ## How a lookup tells of refusals -/

/-- Whatever select is refused, the failure of the lookup is made of the refusal as
`wraps` says. -/
inductive Wraps (wraps : StoreError → ε → Prop) : Lookup ε α → Prop
  | done (result : α) : Wraps wraps (.done result)
  | count (counter : Counter) {next : Lookup ε α} (hnext : Wraps wraps next) :
      Wraps wraps (.count counter next)
  | ask (select : Select) {refuse : StoreError → ε} {next : List Record → Lookup ε α}
      (hrefuse : ∀ failure, wraps failure (refuse failure))
      (hnext : ∀ rows, Wraps wraps (next rows)) : Wraps wraps (.ask select refuse next)

namespace Wraps

variable {wraps : StoreError → ε → Prop} {wraps' : StoreError → δ → Prop} {lookup : Lookup ε α}

theorem pure (result : α) : Wraps wraps (pure result : Lookup ε α) :=
  .done result

theorem tick (counter : Counter) : Wraps wraps (tick counter : Lookup ε Unit) :=
  .count counter (.done ())

theorem fetch (select : Select) : Wraps (fun failure error => error = failure) (fetch select) :=
  .ask select (fun _ => rfl) .done

theorem bind (hlookup : Wraps wraps lookup) {rest : α → Lookup ε β}
    (hrest : ∀ result, Wraps wraps (rest result)) : Wraps wraps (lookup >>= rest) := by
  induction hlookup with
  | done result => exact hrest result
  | count counter _ ih => exact .count counter ih
  | ask select hrefuse _ ih => exact .ask select hrefuse ih

theorem map (hlookup : Wraps wraps lookup) (f : α → β) : Wraps wraps (f <$> lookup) :=
  hlookup.bind fun result => .done (f result)

theorem mono (hlookup : Wraps wraps lookup) {weaker : StoreError → ε → Prop}
    (hweaker : ∀ failure error, wraps failure error → weaker failure error) : Wraps weaker lookup := by
  induction hlookup with
  | done result => exact .done result
  | count counter _ ih => exact .count counter ih
  | ask select hrefuse _ ih =>
      exact .ask select (fun failure => hweaker failure _ (hrefuse failure)) ih

theorem mapError (hlookup : Wraps wraps lookup) {f : ε → δ}
    (hf : ∀ failure error, wraps failure error → wraps' failure (f error)) :
    Wraps wraps' (lookup.mapError f) := by
  induction hlookup with
  | done result => exact .done result
  | count counter _ ih => exact .count counter ih
  | ask select hrefuse _ ih => exact .ask select (fun failure => hf failure _ (hrefuse failure)) ih

theorem of_refusal (hlookup : Wraps wraps lookup) {answered : List (List Record)}
    {failure : StoreError} {error : ε} (hrefusal : lookup.refusal answered failure = some error) :
    wraps failure error := by
  induction hlookup generalizing answered with
  | done result => cases hrefusal
  | count counter _ ih => exact ih hrefusal
  | ask select hrefuse _ ih =>
      cases answered with
      | nil =>
          cases hrefusal
          exact hrefuse failure
      | cons rows answered => exact ih rows hrefusal

theorem stopsAtFailure (hlookup : Wraps wraps lookup) : StopsAtFailure lookup.operation wraps :=
  lookup.stopsAtFailure.mono fun _ _ ⟨_, hrefusal⟩ => hlookup.of_refusal hrefusal

/-- Refusals that are handed on as they are, and then read as failures of another kind. -/
theorem readAs {lookup : Lookup StoreError α} (hlookup : Wraps (fun failure error => error = failure) lookup)
    (f : StoreError → ε) : Wraps (fun failure error => error = f failure) (lookup.mapError f) := by
  apply hlookup.mapError
  intro failure error herror
  rw [herror]

theorem among (select : Select) (column : String) (values : List String) :
    Wraps (fun failure error => error = failure) (among select column values) := by
  unfold Lookup.among
  induction pieces values with
  | nil => exact .done []
  | cons piece rest ih =>
      apply (fetch _).bind
      intro rows
      apply ih.bind
      intro more
      exact .done (rows ++ more)

end Wraps

end Lookup

end ComicCatalog
