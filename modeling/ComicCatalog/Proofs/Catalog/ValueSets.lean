import ComicCatalog.Catalog.Matching
import ComicCatalog.Proofs.Lookup.Answered
import ComicCatalog.Proofs.Work.Candidates

/-! # Queries as sets of values

Where each select is always answered by the same rows, every value of a facet and every
identifier stands for a fixed list of works, and a field asks for the works of all of its
values. So neither the order of the values nor how often they come tells in what a query
resolves to, although it decides which of them are looked up. The title values are the
exception, since they form one phrase.
-/

namespace ComicCatalog

open Lookup

variable {answer : Select → List Record}

/-! ## Facets -/

namespace Facet

variable (facet : Facet)

/-- The works that are linked to one of the names. -/
def worksOfNames (answer : Select → List Record) (names : List Ident) : List Ident :=
  identsIn "manga_id" <| (pieces (names.map Ident.text)).flatMap fun piece =>
    answer ((Select.ofColumns facet.linksTable ["manga_id"]).filtered (.oneOf facet.linkColumn piece))

/-- The works of a value; none if no name equals it. -/
def worksOf (answer : Select → List Record) (value : String) : List Ident :=
  facet.worksOfNames answer (identsIn "id" (answer (facet.nameSelect value)))

theorem worksOfNames_nil : facet.worksOfNames answer [] = [] := by
  simp [worksOfNames, pieces, identsIn]

theorem found_worksLinkedTo (names : List Ident) :
    (facet.worksLinkedTo names).found answer = .ofList (facet.worksOfNames answer names) := by
  rw [worksLinkedTo, found_bind, found_pure, found_among, worksOfNames]

/-- The sets of the values are there unless a value has no usable name. -/
theorem found_setsOf (values : List String) :
    (facet.setsOf values).found answer = some (values.map fun value => .ofList (facet.worksOf answer value)) ∨
      (facet.setsOf values).found answer = none ∧
        ∃ value ∈ values, facet.worksOf answer value = [] := by
  induction values with
  | nil => exact Or.inl rfl
  | cons value rest ih =>
      rw [setsOf, found_bind, found_fetch]
      cases hnames : identsIn "id" (answer (facet.nameSelect value)) with
      | nil =>
          refine Or.inr ⟨rfl, value, List.mem_cons_self, ?_⟩
          rw [worksOf, hnames, worksOfNames_nil]
      | cons name names =>
          simp only [found_bind, found_pure, found_worksLinkedTo, ← hnames]
          rcases ih with hsets | ⟨hnone, missed, hmissed, hworks⟩
          · rw [hsets]
            exact Or.inl rfl
          · rw [hnone]
            exact Or.inr ⟨rfl, missed, List.mem_cons_of_mem value hmissed, hworks⟩

end Facet

/-! ## Fields -/

namespace Field

/-- The works of one value of a field. The values of the title have none on their own. -/
def worksOf (answer : Select → List Record) (field : Field) (value : String) : List Ident :=
  match field with
  | .facet kind => kind.worksOf answer value
  | .title => []
  | .id => [Ident.ofText value]

theorem found_candidates_nil (field : Field) :
    (field.candidates []).found answer = none :=
  rfl

/-- A field with a value has a sorted set of candidates. But for the title it is made of the
works of all values. -/
theorem found_candidates (answer : Select → List Record) (field : Field) {values : List String}
    (hvalues : values ≠ []) :
    ∃ set, (field.candidates values).found answer = some set ∧ set.IsSorted ∧
      (field ≠ .title → ∀ id, id ∈ set.ids ↔ ∀ value ∈ values, id ∈ field.worksOf answer value) := by
  unfold Field.candidates
  rw [if_neg (by simpa using hvalues)]
  cases field with
  | facet kind =>
      rw [found_mapError, Facet.candidates, found_bind]
      rcases kind.found_setsOf values with hsets | ⟨hnone, missed, hmissed, hworks⟩
      · rw [hsets]
        obtain ⟨set, hmeet, hsorted, hmem⟩ :=
          Candidates.exists_meet_ofList hvalues (kind.worksOf answer)
        exact ⟨set, hmeet, hsorted, fun _ => hmem⟩
      · rw [hnone]
        refine ⟨.empty, rfl, Candidates.isSorted_empty, fun _ id => ?_⟩
        refine iff_of_false List.not_mem_nil fun hall => ?_
        have hid : id ∈ kind.worksOf answer missed := hall missed hmissed
        rw [hworks] at hid
        cases hid
  | title =>
      rw [found_mapError, found_map, titleCandidates, found_bind, found_pure]
      exact ⟨_, rfl, Candidates.isSorted_ofList _, fun hfield => absurd rfl hfield⟩
  | id =>
      obtain ⟨set, hmeet, hsorted, hmem⟩ :=
        Candidates.exists_meet_ofList hvalues fun value => [Ident.ofText value]
      exact ⟨set, hmeet, hsorted, fun _ => hmem⟩

/-- The candidates of a field but for the title depend on the set of its values only. -/
theorem found_candidates_congr {field : Field} (hfield : field ≠ .title) {first second : List String}
    (hvalues : ∀ value, value ∈ first ↔ value ∈ second) :
    (field.candidates first).found answer = (field.candidates second).found answer := by
  by_cases hsecond : second = []
  · have hfirst : first = [] := by
      rw [List.eq_nil_iff_forall_not_mem] at hsecond ⊢
      intro value hvalue
      exact hsecond value ((hvalues value).mp hvalue)
    rw [hfirst, hsecond]
  · have hfirst : first ≠ [] := by
      obtain ⟨value, hvalue⟩ := List.exists_mem_of_ne_nil second hsecond
      exact List.ne_nil_of_mem ((hvalues value).mpr hvalue)
    obtain ⟨left, hleft, hleftSorted, hleftMem⟩ := found_candidates answer field hfirst
    obtain ⟨right, hright, hrightSorted, hrightMem⟩ := found_candidates answer field hsecond
    rw [hleft, hright, Option.some.injEq]
    apply hleftSorted.eq_of_mem_iff hrightSorted
    intro id
    rw [hleftMem hfield, hrightMem hfield]
    simp only [hvalues]

theorem isSorted_found_candidates {field : Field} {values : List String} {set : Candidates}
    (hset : (field.candidates values).found answer = some set) : set.IsSorted := by
  by_cases hvalues : values = []
  · rw [hvalues, found_candidates_nil] at hset
    cases hset
  · obtain ⟨other, hother, hsorted, -⟩ := found_candidates answer field hvalues
    rw [hset, Option.some.injEq] at hother
    exact hother ▸ hsorted

end Field

/-! ## Queries -/

namespace Criteria

theorem found_candidatesOf (criteria : Criteria) (fields : List Field) :
    (criteria.candidatesOf fields).found answer =
      fields.map fun field => (field.candidates (criteria.values field)).found answer := by
  induction fields with
  | nil => rfl
  | cons field rest ih =>
      rw [candidatesOf, found_bind, found_bind, found_pure, ih, List.map_cons]

theorem found_works (criteria : Criteria) :
    criteria.works.found answer = ((Candidates.meetPresent (Field.all.map fun field =>
      (field.candidates (criteria.values field)).found answer)).map Candidates.ids).getD [] := by
  rw [works, found_bind, found_candidatesOf]
  cases Candidates.meetPresent _ <;> rfl

theorem pairwise_found_works (criteria : Criteria) :
    (criteria.works.found answer).Pairwise fun a b => a.text < b.text := by
  rw [found_works]
  cases hmeet : Candidates.meetPresent _ with
  | none => exact List.Pairwise.nil
  | some set =>
      apply Candidates.isSorted_meetPresent hmeet
      intro other hother
      obtain ⟨field, -, hfield⟩ := List.mem_map.mp hother
      exact Field.isSorted_found_candidates hfield

theorem found_works_empty : empty.works.found answer = [] :=
  rfl

end Criteria

variable {σ : Type}

/-- Where each select is always answered by the same rows, two queries with the same title
values, and for every other field the same set of values, resolve to the same works, sorted
by identifier and each one once. A query without values resolves to none. -/
theorem works_of_value_sets {responder : Responder σ}
    (hanswer : ∀ select state, (responder select state).1 = .ok (answer select))
    {first second : Criteria} (htitle : first.values .title = second.values .title)
    (hvalues : ∀ field, field ≠ .title →
      ∀ value, value ∈ first.values field ↔ value ∈ second.values field) (state other : σ) :
    (∃ works : List Ident, (first.works.run responder state).result = .ok works ∧
      (second.works.run responder other).result = .ok works ∧
      works.Pairwise fun a b => a.text < b.text) ∧
    (Criteria.empty.works.run responder state).result = .ok [] := by
  have hsame : second.works.found answer = first.works.found answer := by
    rw [Criteria.found_works, Criteria.found_works]
    congr 3
    apply List.map_congr_left
    intro field _
    by_cases hfield : field = .title
    · rw [hfield, htitle]
    · exact (Field.found_candidates_congr hfield (hvalues field hfield)).symm
  refine ⟨⟨first.works.found answer, run_found hanswer _ state, ?_,
    first.pairwise_found_works⟩, ?_⟩
  · rw [← hsame]
    exact run_found hanswer _ other
  · rw [run_found hanswer, Criteria.found_works_empty]

/-- Two tags in both orders, one of them twice, around the same title. -/
theorem works_of_value_sets_reordered :
    let responder := Responder.always fun select =>
      if select.table = "tags" then [[("id", .ofInt 1)]]
      else [[("id", .ofInt 7), ("manga_id", .ofInt 7)]]
    (∃ works : List Ident,
      ((Criteria.mk [(.facet .tag, "dog"), (.title, "a"), (.facet .tag, "cat")]).works.run
        responder ()).result = .ok works ∧
      ((Criteria.mk [(.facet .tag, "cat"), (.facet .tag, "dog"), (.title, "a"),
        (.facet .tag, "cat")]).works.run responder ()).result = .ok works ∧
      works.Pairwise fun a b => a.text < b.text) ∧
    (Criteria.empty.works.run responder ()).result = .ok [] := by
  intro responder
  refine works_of_value_sets (Responder.answer_always _) ?_ ?_ () ()
  · rfl
  intro field hfield value
  by_cases htag : field = .facet .tag
  · subst htag
    simp [Criteria.values]
    tauto
  · simp [Criteria.values, Ne.symm hfield, Ne.symm htag]

end ComicCatalog
