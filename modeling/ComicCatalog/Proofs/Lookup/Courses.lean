import ComicCatalog.Proofs.Lookup.Failures
import ComicCatalog.Proofs.Lookup.Outcome

/-! # Courses of lookups

A course is one way a lookup can go: what it asks and is answered, what it counts, and how
it ends. Every run against a responder is a course, so what holds of all courses holds of
all runs, whoever answers. A sequence goes as its first part does and then, unless that
fails, as its second.
-/

namespace ComicCatalog

/-- A select and what it is answered. -/
abbrev Exchange := Select × Except StoreError (List Record)

namespace Responder

variable {σ : Type}

/-- Selects that are asked one after the other, each with its answer. -/
def exchanges (responder : Responder σ) : List Select → σ → List Exchange
  | [], _ => []
  | select :: rest, state =>
      (select, (responder select state).1) :: exchanges responder rest (responder select state).2

@[simp]
theorem map_fst_exchanges (responder : Responder σ) (selects : List Select) (state : σ) :
    (responder.exchanges selects state).map Prod.fst = selects := by
  induction selects generalizing state with
  | nil => rfl
  | cons select rest ih => rw [exchanges, List.map_cons, ih]

/-- A responder that always answers alike does so in every exchange. -/
theorem answer_of_mem_exchanges {responder : Responder σ}
    {answer : Select → Except StoreError (List Record)}
    (hanswer : ∀ select state, (responder select state).1 = answer select)
    {selects : List Select} {state : σ} {exchange : Exchange}
    (hexchange : exchange ∈ responder.exchanges selects state) :
    answer exchange.1 = exchange.2 := by
  induction selects generalizing state with
  | nil => cases hexchange
  | cons select rest ih =>
      rcases List.mem_cons.mp hexchange with rfl | hexchange
      · exact (hanswer select state).symm
      · exact ih hexchange

end Responder

namespace Lookup

variable {σ ε δ α β : Type}

/-- What a lookup asks and is answered, what it counts, and how it ends, if it is answered
so. -/
inductive Course : Lookup ε α → List Exchange → Tally → Except ε α → Prop
  | done (result : α) : Course (.done result) [] [] (.ok result)
  | count (counter : Counter) {next : Lookup ε α} {exchanges : List Exchange} {counted : Tally}
      {result : Except ε α} (hnext : Course next exchanges counted result) :
      Course (.count counter next) exchanges (counter :: counted) result
  | answered (select : Select) {refuse : StoreError → ε} {next : List Record → Lookup ε α}
      {rows : List Record} {exchanges : List Exchange} {counted : Tally} {result : Except ε α}
      (hnext : Course (next rows) exchanges counted result) :
      Course (.ask select refuse next) ((select, .ok rows) :: exchanges) counted result
  | refused (select : Select) {refuse : StoreError → ε} {next : List Record → Lookup ε α}
      (failure : StoreError) :
      Course (.ask select refuse next) [(select, .error failure)] [] (.error (refuse failure))

/-- Every run is a course. -/
theorem course_run (lookup : Lookup ε α) (responder : Responder σ) (state : σ) :
    Course lookup (responder.exchanges (lookup.run responder state).asked state)
      (lookup.run responder state).counted (lookup.run responder state).result := by
  induction lookup generalizing state with
  | done result => exact .done result
  | count counter next ih => exact .count counter (ih state)
  | ask select refuse next ih =>
      rcases hanswer : responder select state with ⟨failure | rows, after⟩
      · rw [run_ask_refused hanswer]
        simp only [Responder.exchanges, hanswer]
        exact .refused select failure
      · rw [run_ask_answered hanswer]
        simp only [Responder.exchanges, hanswer]
        exact .answered select (ih rows after)

namespace Course

variable {lookup : Lookup ε α} {exchanges : List Exchange} {counted : Tally}

theorem of_pure {found : α} {result : Except ε α}
    (hcourse : Course (pure found) exchanges counted result) :
    exchanges = [] ∧ counted = [] ∧ result = .ok found := by
  change Course (.done found) exchanges counted result at hcourse
  cases hcourse
  exact ⟨rfl, rfl, rfl⟩

theorem of_tick {counter : Counter} {result : Except ε Unit}
    (hcourse : Course (tick counter) exchanges counted result) :
    exchanges = [] ∧ counted = [counter] := by
  change Course (.count counter (.done ())) exchanges counted result at hcourse
  cases hcourse with
  | count _ hnext =>
      cases hnext
      exact ⟨rfl, rfl⟩

theorem of_fetch {select : Select} {result : Except StoreError (List Record)}
    (hcourse : Course (fetch select) exchanges counted result) :
    exchanges = [(select, result)] ∧ counted = [] := by
  change Course (.ask select id .done) exchanges counted result at hcourse
  cases hcourse with
  | answered _ hnext =>
      cases hnext
      exact ⟨rfl, rfl⟩
  | refused => exact ⟨rfl, rfl⟩

/-- A sequence ends where its first part fails, or goes on behind it. -/
theorem of_bind {rest : α → Lookup ε β} {result : Except ε β}
    (hcourse : Course (lookup >>= rest) exchanges counted result) :
    (∃ error, result = .error error ∧ Course lookup exchanges counted (.error error)) ∨
    ∃ found first second before after, Course lookup first before (.ok found) ∧
      Course (rest found) second after result ∧
      exchanges = first ++ second ∧ counted = before ++ after := by
  induction lookup generalizing exchanges counted with
  | done found => exact Or.inr ⟨found, [], exchanges, [], counted, .done found, hcourse, rfl, rfl⟩
  | count counter next ih =>
      change Course (.count counter (next >>= rest)) exchanges counted result at hcourse
      cases hcourse with
      | count _ hnext =>
          rcases ih hnext with ⟨error, hresult, hfirst⟩ |
            ⟨found, first, second, before, after, hfirst, hsecond, hexchanges, hcounted⟩
          · exact Or.inl ⟨error, hresult, .count counter hfirst⟩
          · exact Or.inr ⟨found, first, second, counter :: before, after, .count counter hfirst,
              hsecond, hexchanges, congrArg (counter :: ·) hcounted⟩
  | ask select refuse next ih =>
      change Course (.ask select refuse fun rows => next rows >>= rest) exchanges counted result
        at hcourse
      cases hcourse with
      | @answered _ _ _ rows _ _ _ hnext =>
          rcases ih rows hnext with ⟨error, hresult, hfirst⟩ |
            ⟨found, first, second, before, after, hfirst, hsecond, hexchanges, hcounted⟩
          · exact Or.inl ⟨error, hresult, .answered select hfirst⟩
          · exact Or.inr ⟨found, (select, .ok rows) :: first, second, before, after,
              .answered select hfirst, hsecond, congrArg ((select, .ok rows) :: ·) hexchanges,
              hcounted⟩
      | refused _ failure => exact Or.inl ⟨refuse failure, rfl, .refused select failure⟩

/-- A sequence has a result where both of its parts have one. -/
theorem of_bind_ok {rest : α → Lookup ε β} {result : β}
    (hcourse : Course (lookup >>= rest) exchanges counted (.ok result)) :
    ∃ found first second before after, Course lookup first before (.ok found) ∧
      Course (rest found) second after (.ok result) ∧
      exchanges = first ++ second ∧ counted = before ++ after := by
  rcases hcourse.of_bind with ⟨error, hresult, -⟩ | hparts
  · cases hresult
  · exact hparts

theorem of_mapError {f : ε → δ} {result : Except δ α}
    (hcourse : Course (lookup.mapError f) exchanges counted result) :
    ∃ inner, result = inner.mapError f ∧ Course lookup exchanges counted inner := by
  induction lookup generalizing exchanges counted with
  | done found =>
      cases hcourse
      exact ⟨.ok found, rfl, .done found⟩
  | count counter next ih =>
      cases hcourse with
      | count _ hnext =>
          obtain ⟨inner, hinner, hcourse⟩ := ih hnext
          exact ⟨inner, hinner, .count counter hcourse⟩
  | ask select refuse next ih =>
      cases hcourse with
      | answered _ hnext =>
          obtain ⟨inner, hinner, hcourse⟩ := ih _ hnext
          exact ⟨inner, hinner, .answered select hcourse⟩
      | refused _ failure => exact ⟨.error (refuse failure), rfl, .refused select failure⟩

theorem of_mapError_ok {f : ε → δ} {found : α}
    (hcourse : Course (lookup.mapError f) exchanges counted (.ok found)) :
    Course lookup exchanges counted (.ok found) := by
  obtain ⟨inner, hinner, hcourse⟩ := hcourse.of_mapError
  cases inner with
  | error failure => cases hinner
  | ok result =>
      cases hinner
      exact hcourse

end Course

/-! ## What a lookup asks -/

/-- No select is asked but allowed ones. -/
structure AsksOnly (allowed : Select → Prop) (lookup : Lookup ε α) : Prop where
  of_course : ∀ {exchanges : List Exchange} {counted : Tally} {result : Except ε α},
    Course lookup exchanges counted result → ∀ exchange ∈ exchanges, allowed exchange.1

namespace AsksOnly

variable {allowed : Select → Prop} {lookup : Lookup ε α}

theorem pure (found : α) : AsksOnly allowed (pure found : Lookup ε α) := by
  constructor
  intro exchanges counted result hcourse exchange hexchange
  rw [hcourse.of_pure.1] at hexchange
  cases hexchange

theorem tick (counter : Counter) : AsksOnly allowed (tick counter : Lookup ε Unit) := by
  constructor
  intro exchanges counted result hcourse exchange hexchange
  rw [hcourse.of_tick.1] at hexchange
  cases hexchange

theorem fetch {select : Select} (hselect : allowed select) : AsksOnly allowed (fetch select) := by
  constructor
  intro exchanges counted result hcourse exchange hexchange
  rw [hcourse.of_fetch.1, List.mem_singleton] at hexchange
  rw [hexchange]
  exact hselect

theorem bind (hlookup : AsksOnly allowed lookup) {rest : α → Lookup ε β}
    (hrest : ∀ found, AsksOnly allowed (rest found)) : AsksOnly allowed (lookup >>= rest) := by
  constructor
  intro exchanges counted result hcourse exchange hexchange
  rcases hcourse.of_bind with ⟨error, -, hfirst⟩ |
    ⟨found, first, second, before, after, hfirst, hsecond, rfl, -⟩
  · exact hlookup.of_course hfirst exchange hexchange
  · rcases List.mem_append.mp hexchange with hexchange | hexchange
    · exact hlookup.of_course hfirst exchange hexchange
    · exact (hrest found).of_course hsecond exchange hexchange

theorem map (hlookup : AsksOnly allowed lookup) (f : α → β) : AsksOnly allowed (f <$> lookup) :=
  hlookup.bind fun found => pure (f found)

theorem mapError (hlookup : AsksOnly allowed lookup) (f : ε → δ) :
    AsksOnly allowed (lookup.mapError f) := by
  constructor
  intro exchanges counted result hcourse
  obtain ⟨inner, -, hcourse⟩ := hcourse.of_mapError
  exact hlookup.of_course hcourse

theorem mono (hlookup : AsksOnly allowed lookup) {wider : Select → Prop}
    (hwider : ∀ select, allowed select → wider select) : AsksOnly wider lookup := by
  constructor
  intro exchanges counted result hcourse exchange hexchange
  exact hwider _ (hlookup.of_course hcourse exchange hexchange)

theorem asked (hlookup : AsksOnly allowed lookup) (responder : Responder σ) (state : σ) :
    ∀ select ∈ (lookup.run responder state).asked, allowed select := by
  intro select hselect
  rw [← responder.map_fst_exchanges (lookup.run responder state).asked state] at hselect
  obtain ⟨exchange, hexchange, rfl⟩ := List.mem_map.mp hselect
  exact hlookup.of_course (course_run lookup responder state) exchange hexchange

end AsksOnly

/-- A lookup among many values asks one select for each piece of them. -/
theorem asksOnly_among (select : Select) (column : String) (values : List String) :
    AsksOnly (fun asked => ∃ piece, piece.length ≤ maxAmong ∧
      asked = select.filtered (.oneOf column piece)) (among select column values) := by
  have hpieces : ∀ piece ∈ pieces values, piece.length ≤ maxAmong := fun _ => length_le_of_mem_pieces
  unfold among
  generalize pieces values = cut at hpieces
  induction cut with
  | nil => exact AsksOnly.pure []
  | cons piece rest ih =>
      apply AsksOnly.bind
      · exact AsksOnly.fetch ⟨piece, hpieces piece List.mem_cons_self, rfl⟩
      intro rows
      apply (ih fun other hother => hpieces other (List.mem_cons_of_mem piece hother)).bind
      intro more
      exact AsksOnly.pure (rows ++ more)

/-! ## What a lookup counts -/

/-- Nothing is counted but what stands in the tally, in its order. -/
structure CountsWithin (tally : Tally) (lookup : Lookup ε α) : Prop where
  of_course : ∀ {exchanges : List Exchange} {counted : Tally} {result : Except ε α},
    Course lookup exchanges counted result → counted.Sublist tally

namespace CountsWithin

variable {tally : Tally} {lookup : Lookup ε α}

theorem pure (found : α) : CountsWithin [] (pure found : Lookup ε α) := by
  constructor
  intro exchanges counted result hcourse
  rw [hcourse.of_pure.2.1]

theorem tick (counter : Counter) : CountsWithin [counter] (tick counter : Lookup ε Unit) := by
  constructor
  intro exchanges counted result hcourse
  rw [hcourse.of_tick.2]

theorem fetch (select : Select) : CountsWithin [] (fetch select) := by
  constructor
  intro exchanges counted result hcourse
  rw [hcourse.of_fetch.2]

theorem bind (hlookup : CountsWithin tally lookup) {more : Tally} {rest : α → Lookup ε β}
    (hrest : ∀ found, CountsWithin more (rest found)) :
    CountsWithin (tally ++ more) (lookup >>= rest) := by
  constructor
  intro exchanges counted result hcourse
  rcases hcourse.of_bind with ⟨error, -, hfirst⟩ |
    ⟨found, first, second, before, after, hfirst, hsecond, -, rfl⟩
  · exact (hlookup.of_course hfirst).trans (List.sublist_append_left _ _)
  · exact (hlookup.of_course hfirst).append ((hrest found).of_course hsecond)

theorem map (hlookup : CountsWithin tally lookup) (f : α → β) :
    CountsWithin tally (f <$> lookup) := by
  have hpure : ∀ found, CountsWithin [] (.done (f found) : Lookup ε β) := fun found => pure (f found)
  have hmap := hlookup.bind hpure
  rwa [List.append_nil] at hmap

theorem mapError (hlookup : CountsWithin tally lookup) (f : ε → δ) :
    CountsWithin tally (lookup.mapError f) := by
  constructor
  intro exchanges counted result hcourse
  obtain ⟨inner, -, hcourse⟩ := hcourse.of_mapError
  exact hlookup.of_course hcourse

theorem among (select : Select) (column : String) (values : List String) :
    CountsWithin [] (among select column values) := by
  unfold Lookup.among
  induction pieces values with
  | nil => exact pure []
  | cons piece rest ih =>
      apply (fetch _).bind
      intro rows
      apply ih.bind
      intro more
      exact pure (rows ++ more)

theorem widen (hlookup : CountsWithin tally lookup) {wider : Tally} (hwider : tally.Sublist wider) :
    CountsWithin wider lookup := by
  constructor
  intro exchanges counted result hcourse
  exact (hlookup.of_course hcourse).trans hwider

theorem counted (hlookup : CountsWithin tally lookup) (responder : Responder σ) (state : σ) :
    (lookup.run responder state).counted.Sublist tally :=
  hlookup.of_course (course_run lookup responder state)

end CountsWithin

end Lookup

end ComicCatalog
