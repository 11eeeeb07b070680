import ComicCatalog.Proofs.Catalog.Matching
import ComicCatalog.Proofs.Catalog.ShortCircuits

/-! # What searches count

Every search is counted once, by how it ended, and so the outcomes that are counted over a
run of searches add up to the number of searches. On the way a search counts the facets
that it cuts short: each at most once, and just where a value has no name.
-/

namespace ComicCatalog

open Lookup

variable {σ : Type}

namespace Search

/-! ## What is counted on the way -/

theorem countsWithin_entriesOf (works : List Ident) : CountsWithin [] (entriesOf works) := by
  apply (CountsWithin.among _ _ _).bind
  intro rows
  exact countsWithin_annotate rows

theorem countsWithin_shown (works : List Ident) :
    CountsWithin [] (match works with
      | [] => pure (some [])
      | works => some <$> (entriesOf works).mapError .store : Lookup CatalogError _) := by
  cases works with
  | nil => exact CountsWithin.pure _
  | cons work rest =>
      exact ((countsWithin_entriesOf (work :: rest)).mapError CatalogError.store).map some

theorem countsWithin_entries? (query : String) :
    CountsWithin (Facet.all.map .shortCircuit) (entries? query) := by
  unfold entries?
  extract_lets criteria
  split
  · exact (CountsWithin.pure none).widen (List.nil_sublist _)
  · rw [← List.append_nil (Facet.all.map _)]
    apply (criteria.countsWithin_works.mapError CatalogError.search).bind
    exact countsWithin_shown

theorem countsMisses_entries? (query : String) : CountsMisses (entries? query) := by
  unfold entries?
  extract_lets criteria
  split
  · exact CountsMisses.pure none
  · apply (criteria.countsMisses_works.mapError CatalogError.search).bind
    intro works
    exact .of_isAmong (countsWithin_shown works) (asksOnly_shown works)

variable {query : String} {exchanges : List Exchange} {counted : Tally}

theorem settled_entries? {found : Option (List Entry)}
    (hcourse : Course (entries? query) exchanges counted (.ok found)) (facet : Facet) :
    facet.Settled ((Criteria.ofQuery query).values (.facet facet)) exchanges counted := by
  unfold entries? at hcourse
  extract_lets criteria at hcourse
  split at hcourse
  next hempty =>
    right
    rw [criteria.isEmpty_iff.mp hempty]
    exact nofun
  next =>
    obtain ⟨works, first, second, before, after, hworks, -, rfl, rfl⟩ := hcourse.of_bind_ok
    exact (criteria.settled_works hworks.of_mapError_ok facet).mono (List.subset_append_left _ _)
      (List.subset_append_left _ _)

/-- No entries are looked for exactly where the query asks for nothing. -/
theorem eq_none_iff_of_course {found : Option (List Entry)}
    (hcourse : Course (entries? query) exchanges counted (.ok found)) :
    found = none ↔ (Criteria.ofQuery query).isEmpty = true := by
  unfold entries? at hcourse
  extract_lets criteria at hcourse
  split at hcourse
  next hempty =>
    obtain ⟨-, -, hresult⟩ := hcourse.of_pure
    cases hresult
    exact iff_of_true rfl hempty
  next hpresent =>
    refine iff_of_false ?_ hpresent
    obtain ⟨works, first, second, before, after, -, hshown, -, -⟩ := hcourse.of_bind_ok
    rintro rfl
    cases works with
    | nil => cases hshown.of_pure.2.2
    | cons work rest =>
        obtain ⟨entries, _, _, _, _, -, hpure, -, -⟩ := hshown.of_bind_ok
        cases (Course.of_pure hpure).2.2

theorem run_entries?_of_isEmpty (hempty : (Criteria.ofQuery query).isEmpty = true)
    (responder : Responder σ) (state : σ) :
    (entries? query).run responder state = ⟨.ok none, [], [], state⟩ := by
  unfold entries?
  simp only [hempty, if_true]
  rfl

/-! ## One search -/

/-- What a search counts, told from its query, from what it asked and was answered, and from
how it ended. -/
structure Accounted (query : String) (exchanges : List Exchange)
    (run : Run σ CatalogError (List Entry)) : Prop where
  /-- One outcome is counted, and only once. -/
  outcome : ∃ outcome : SearchOutcome,
    (∀ other, run.counted.count (.search other) = if other = outcome then 1 else 0) ∧
    (outcome = .emptyQuery ↔ (Criteria.ofQuery query).isEmpty = true) ∧
    (outcome = .error ↔ ∃ error, run.result = .error error) ∧
    (outcome = .matched ↔ ∃ entry rest, run.result = .ok (entry :: rest)) ∧
    (outcome = .noMatch ↔ (Criteria.ofQuery query).isEmpty = false ∧ run.result = .ok [])
  asks_nothing : (Criteria.ofQuery query).isEmpty = true → run.asked = []
  at_most_once : ∀ facet, run.counted.count (.shortCircuit facet) ≤ 1
  missed : ∀ facet, run.counted.count (.shortCircuit facet) = 1 ↔
    ∃ value ∈ (Criteria.ofQuery query).values (.facet facet), facet.Missed value exchanges
  /-- With a result, all values of a facet that is not counted have been found. -/
  found : ∀ facet entries, run.result = .ok entries →
    run.counted.count (.shortCircuit facet) = 0 →
      ∀ value ∈ (Criteria.ofQuery query).values (.facet facet), facet.Found value exchanges

variable (responder : Responder σ) (query : String) (state : σ)

/-- On the way to its outcome a search counts facets only. -/
theorem counted_search : ∃ counted : Tally,
    counted.Sublist (Facet.all.map .shortCircuit) ∧
    (search responder query state).counted =
      counted ++ [.search (outcome ((entries? query).run responder state).result)] :=
  ⟨_, (countsWithin_entries? query).counted responder state, rfl⟩

theorem count_outcome (other : SearchOutcome) :
    (search responder query state).counted.count (.search other) =
      if other = outcome ((entries? query).run responder state).result then 1 else 0 := by
  obtain ⟨counted, hcounted, hsearch⟩ := counted_search responder query state
  have hnone : Counter.search other ∉ counted := by
    intro hmem
    have hfacet := hcounted.subset hmem
    simp at hfacet
  rw [hsearch, List.count_append, List.count_eq_zero.mpr hnone, Nat.zero_add, List.count_singleton]
  simp only [beq_iff_eq, Counter.search.injEq, @eq_comm _ other]

theorem count_shortCircuit (facet : Facet) :
    (search responder query state).counted.count (.shortCircuit facet) =
      ((entries? query).run responder state).counted.count (.shortCircuit facet) := by
  show (_ ++ [Counter.search _]).count _ = _
  simp [List.count_append]

theorem count_shortCircuit_le_one (facet : Facet) :
    (search responder query state).counted.count (.shortCircuit facet) ≤ 1 := by
  have hnodup : (Facet.all.map Counter.shortCircuit).Nodup := by decide
  have hcounted := (countsWithin_entries? query).counted responder state
  rw [count_shortCircuit]
  exact (hcounted.count_le _).trans (List.nodup_iff_count_le_one.mp hnodup _)

theorem accounted : Accounted query (responder.exchanges (search responder query state).asked state)
    (search responder query state) := by
  have hcourse := course_run (entries? query) responder state
  constructor
  · refine ⟨_, count_outcome responder query state, ?_⟩
    -- The outcome follows from the result alone, and whether the query is empty shows in it too.
    show (outcome ((entries? query).run responder state).result = _ ↔ _) ∧
      (_ ↔ ∃ error, ((entries? query).run responder state).result.map _ = .error error) ∧
      (_ ↔ ∃ entry rest, ((entries? query).run responder state).result.map _ = .ok (entry :: rest)) ∧
      (_ ↔ _ ∧ ((entries? query).run responder state).result.map _ = .ok [])
    rcases hresult : ((entries? query).run responder state).result with error | found
    · have hpresent : (Criteria.ofQuery query).isEmpty = false := by
        by_contra hempty
        rw [Bool.not_eq_false] at hempty
        rw [run_entries?_of_isEmpty hempty] at hresult
        cases hresult
      simp [outcome, Except.map, hpresent]
    · rw [hresult] at hcourse
      have hnone := eq_none_iff_of_course hcourse
      rcases found with - | - | ⟨entry, rest⟩
      · simp [outcome, Except.map, hnone.mp rfl]
      · have hpresent : (Criteria.ofQuery query).isEmpty = false := by simpa using hnone
        simp [outcome, Except.map, hpresent]
      · have hpresent : (Criteria.ofQuery query).isEmpty = false := by simpa using hnone
        simp [outcome, Except.map, hpresent]
  · intro hempty
    show ((entries? query).run responder state).asked = []
    rw [run_entries?_of_isEmpty hempty]
  · exact count_shortCircuit_le_one responder query state
  · intro facet
    have hle := count_shortCircuit_le_one responder query state facet
    rw [count_shortCircuit] at hle ⊢
    have hmem := (countsMisses_entries? query).of_course hcourse facet
    rw [← List.count_pos_iff] at hmem
    constructor
    · intro hone
      -- The name that was missed was asked for, and only values of the facet are.
      obtain ⟨value, hmissed⟩ := hmem.mp (by omega)
      refine ⟨value, ?_, hmissed⟩
      obtain ⟨rows, hexchange, -⟩ := hmissed
      obtain ⟨field, hasks⟩ := (asksOnly_entries? query).of_course hcourse _ hexchange
      obtain ⟨rfl, hvalue⟩ := hasks.name_cases
      exact hvalue
    · rintro ⟨value, -, hmissed⟩
      have hpos := hmem.mpr ⟨value, hmissed⟩
      omega
  · intro facet entries hentries hzero
    rw [count_shortCircuit, List.count_eq_zero] at hzero
    obtain ⟨found, hfound⟩ : ∃ found, ((entries? query).run responder state).result = .ok found := by
      change ((entries? query).run responder state).result.map _ = _ at hentries
      cases hresult : ((entries? query).run responder state).result with
      | error error =>
          rw [hresult] at hentries
          cases hentries
      | ok found => exact ⟨found, rfl⟩
    rw [hfound] at hcourse
    exact (settled_entries? hcourse facet).resolve_left hzero

/-! ## Searches one after the other -/

/-- What searches count that are asked one after the other. -/
def tallyOf (responder : Responder σ) : List String → σ → Tally
  | [], _ => []
  | query :: rest, state =>
      (search responder query state).counted ++
        tallyOf responder rest (search responder query state).state

theorem count_outcomes (responder : Responder σ) (queries : List String) (state : σ) :
    (tallyOf responder queries state).count (.search .matched) +
        (tallyOf responder queries state).count (.search .noMatch) +
        (tallyOf responder queries state).count (.search .emptyQuery) +
        (tallyOf responder queries state).count (.search .error) = queries.length := by
  induction queries generalizing state with
  | nil => rfl
  | cons query rest ih =>
      have hrest := ih (search responder query state).state
      simp only [tallyOf, List.count_append, count_outcome, List.length_cons]
      cases outcome ((entries? query).run responder state).result <;> simp <;> omega

end Search

/-- Whoever answers, every search counts its outcome once and a facet at most once, just
where a value of the facet has no usable name. Where the answer to a select is always the
same, a search with a result counts the facets with a value that is answered by no usable
name. Over a run of searches the outcomes add up to the number of searches. -/
theorem searches_accounted (responder : Responder σ) :
    (∀ query state, Search.Accounted query
      (responder.exchanges (search responder query state).asked state)
      (search responder query state)) ∧
    (∀ answer : Select → Except StoreError (List Record),
      (∀ select state, (responder select state).1 = answer select) →
      ∀ query state facet entries, (search responder query state).result = .ok entries →
        ((search responder query state).counted.count (.shortCircuit facet) = 1 ↔
          ∃ value ∈ (Criteria.ofQuery query).values (.facet facet), ∃ rows,
            answer (facet.nameSelect value) = .ok rows ∧ identsIn "id" rows = [])) ∧
    ∀ queries state,
      (Search.tallyOf responder queries state).count (.search .matched) +
        (Search.tallyOf responder queries state).count (.search .noMatch) +
        (Search.tallyOf responder queries state).count (.search .emptyQuery) +
        (Search.tallyOf responder queries state).count (.search .error) = queries.length := by
  refine ⟨Search.accounted responder, ?_, Search.count_outcomes responder⟩
  intro answer hanswer query state facet entries hentries
  have haccounted := Search.accounted responder query state
  rw [haccounted.missed]
  constructor
  · rintro ⟨value, hvalue, rows, hexchange, hidents⟩
    exact ⟨value, hvalue, rows, Responder.answer_of_mem_exchanges hanswer hexchange, hidents⟩
  · rintro ⟨value, hvalue, rows, hrows, hidents⟩
    rw [← haccounted.missed]
    -- Had the facet not been counted, the value would have been found.
    by_contra hcounted
    have hle := haccounted.at_most_once facet
    obtain ⟨found, hexchange, hfound⟩ := haccounted.found facet entries hentries (by omega) value hvalue
    have hsame := Responder.answer_of_mem_exchanges hanswer hexchange
    rw [hrows] at hsame
    cases hsame
    exact hfound hidents

end ComicCatalog
