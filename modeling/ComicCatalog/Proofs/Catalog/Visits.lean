import ComicCatalog.Proofs.Catalog.ShortCircuits
import ComicCatalog.Proofs.Lookup.Among
import ComicCatalog.Proofs.Lookup.Answered
import ComicCatalog.Proofs.Work.Candidates

/-! # Visits of facet values

The values of a facet are visited in their order. A visit asks for the names that equal the
value and then, one piece of them after the other, for the works that are linked to them.
A value without a usable name ends the lookups of the facet and leaves it no works; without
such a value the facet has the works that every visit has found.
-/

namespace ComicCatalog

open Lookup

namespace Facet

/-- A value of a facet with what it was answered: the names that equal it, and the links of
each piece of them. -/
structure Visit where
  value : String
  names : List Record
  links : List (List Record)

namespace Visit

/-- The usable names. -/
def idents (visit : Visit) : List Ident :=
  identsIn "id" visit.names

/-- The works that the names are linked to. -/
def works (visit : Visit) : List Ident :=
  identsIn "manga_id" visit.links.flatten

/-- What a visit asks, with the answers. -/
def exchanges (facet : Facet) (visit : Visit) : List Exchange :=
  (facet.nameSelect visit.value, .ok visit.names) ::
    amongExchanges (Select.ofColumns facet.linksTable ["manga_id"]) facet.linkColumn
      (visit.idents.map Ident.text) visit.links

/-- There is a usable name, and the links of every piece of the names were answered. -/
structure IsComplete (visit : Visit) : Prop where
  named : visit.idents ≠ []
  linked : visit.links.length = visit.idents.length ⌈/⌉ maxAmong

theorem IsComplete.length_exchanges {visit : Visit} (hvisit : visit.IsComplete) (facet : Facet) :
    (visit.exchanges facet).length = 1 + visit.idents.length ⌈/⌉ maxAmong := by
  rw [exchanges, List.length_cons, amongExchanges, List.length_zipWith, length_pieces,
    List.length_map, hvisit.linked, Nat.min_self, Nat.add_comm]

end Visit

variable {facet : Facet} {values : List String} {exchanges : List Exchange} {counted : Tally}

/-! ## One value -/

theorem course_worksLinkedTo {names : List Ident} {works : Candidates}
    (hcourse : Course (facet.worksLinkedTo names) exchanges counted (.ok works)) :
    ∃ links : List (List Record), links.length = names.length ⌈/⌉ maxAmong ∧
      exchanges = amongExchanges (Select.ofColumns facet.linksTable ["manga_id"]) facet.linkColumn
        (names.map Ident.text) links ∧
      counted = [] ∧ works = .ofList (identsIn "manga_id" links.flatten) := by
  obtain ⟨rows, _, _, _, _, hamong, hpure, rfl, rfl⟩ := hcourse.of_bind_ok
  obtain ⟨rfl, rfl, hworks⟩ := hpure.of_pure
  obtain ⟨links, hlength, rfl, rfl, rfl⟩ := course_among hamong
  rw [List.length_map] at hlength
  cases hworks
  exact ⟨links, hlength, List.append_nil _, rfl, rfl⟩

/-- The first value has no usable name, or it is visited and the others come after it. -/
theorem course_setsOf_visit {value : String} {rest : List String} {result : Option (List Candidates)}
    (hcourse : Course (facet.setsOf (value :: rest)) exchanges counted (.ok result)) :
    (∃ names, identsIn "id" names = [] ∧ exchanges = [(facet.nameSelect value, .ok names)] ∧
      counted = [.shortCircuit facet] ∧ result = none) ∨
    ∃ (visit : Visit) (others : List Exchange) (sets : Option (List Candidates)),
      visit.value = value ∧ visit.IsComplete ∧
      Course (facet.setsOf rest) others counted (.ok sets) ∧
      exchanges = visit.exchanges facet ++ others ∧
      result = sets.map (.ofList visit.works :: ·) := by
  rcases facet.course_setsOf_cons hcourse with ⟨failure, -, -, hfailed⟩ |
    ⟨names, hnone, hexchanges, hcounted, hresult⟩ | ⟨names, _, hsome, rfl, hvisited⟩
  · cases hfailed
  · cases hresult
    exact Or.inl ⟨names, hnone, hexchanges, hcounted, rfl⟩
  · obtain ⟨works, _, _, _, _, hlinked, hmore, rfl, rfl⟩ := hvisited.of_bind_ok
    obtain ⟨sets, others, _, _, _, hrest, hpure, rfl, rfl⟩ := hmore.of_bind_ok
    obtain ⟨rfl, rfl, hresult⟩ := hpure.of_pure
    obtain ⟨links, hlength, rfl, rfl, rfl⟩ := course_worksLinkedTo hlinked
    cases hresult
    refine Or.inr ⟨⟨value, names, links⟩, others, sets, rfl, ⟨hsome, hlength⟩, ?_, ?_, rfl⟩
    · rwa [List.nil_append, List.append_nil]
    · rw [List.append_nil, Visit.exchanges, List.cons_append]
      rfl

/-! ## All values -/

/-- The values are visited up to the first one without a usable name, if there is one. -/
theorem course_setsOf {result : Option (List Candidates)}
    (hcourse : Course (facet.setsOf values) exchanges counted (.ok result)) :
    ∃ visits : List Visit, (∀ visit ∈ visits, visit.IsComplete) ∧
      ((∃ value rest names, values = visits.map Visit.value ++ value :: rest ∧
          identsIn "id" names = [] ∧
          exchanges = visits.flatMap (Visit.exchanges facet) ++
            [(facet.nameSelect value, .ok names)] ∧
          counted = [.shortCircuit facet] ∧ result = none) ∨
        (values = visits.map Visit.value ∧ exchanges = visits.flatMap (Visit.exchanges facet) ∧
          counted = [] ∧ result = some (visits.map fun visit => .ofList visit.works))) := by
  induction values generalizing exchanges counted result with
  | nil =>
      obtain ⟨rfl, rfl, hresult⟩ := hcourse.of_pure
      cases hresult
      exact ⟨[], nofun, Or.inr ⟨rfl, rfl, rfl, rfl⟩⟩
  | cons value rest ih =>
      rcases course_setsOf_visit hcourse with ⟨names, hnone, rfl, rfl, rfl⟩ |
        ⟨visit, others, sets, rfl, hvisit, hrest, rfl, rfl⟩
      · exact ⟨[], nofun, Or.inl ⟨value, rest, names, rfl, hnone, rfl, rfl, rfl⟩⟩
      obtain ⟨visits, hvisits, hend⟩ := ih hrest
      refine ⟨visit :: visits, List.forall_mem_cons.mpr ⟨hvisit, hvisits⟩, hend.imp ?_ ?_⟩
      · rintro ⟨missed, after, names, rfl, hnone, rfl, rfl, rfl⟩
        refine ⟨missed, after, names, rfl, hnone, ?_, rfl, rfl⟩
        rw [List.flatMap_cons, List.append_assoc]
      · rintro ⟨rfl, rfl, rfl, rfl⟩
        exact ⟨rfl, rfl, rfl, rfl⟩

/-- The candidates of a facet come from the sets of its values. -/
theorem course_candidates (hvalues : values ≠ []) {result : Option Candidates}
    (hcourse : Course ((Field.facet facet).candidates values) exchanges counted (.ok result)) :
    ∃ sets, Course (facet.setsOf values) exchanges counted (.ok sets) ∧
      result = sets.elim (some .empty) Candidates.meet := by
  unfold Field.candidates at hcourse
  rw [if_neg (by simpa using hvalues)] at hcourse
  obtain ⟨sets, _, _, _, _, hsets, hpure, rfl, rfl⟩ := hcourse.of_mapError_ok.of_bind_ok
  refine ⟨sets, ?_⟩
  cases sets <;>
  · obtain ⟨rfl, rfl, hresult⟩ := hpure.of_pure
    cases hresult
    rw [List.append_nil, List.append_nil]
    exact ⟨hsets, rfl⟩

end Facet

variable {σ : Type}

/-- Whoever answers without refusing a select, the values of a facet are visited in their
order. The first value without a usable name is the last one that is looked up: no links are
asked for it, the facet is counted, and it has no works. If every value has a usable name,
nothing is counted and the facet has the works that all visits have found. Where the answer
to a select is always the same, the facet is counted just if some value is answered by no
usable name. -/
theorem facet_values_visited (responder : Responder σ)
    (hanswers : ∀ select state, ∃ rows, (responder select state).1 = .ok rows) (facet : Facet)
    {values : List String} (hvalues : values ≠ []) (state : σ) :
    let run := ((Field.facet facet).candidates values).run responder state
    (∃ visits : List Facet.Visit,
      (∀ visit ∈ visits, visit.IsComplete ∧
        (visit.exchanges facet).length = 1 + visit.idents.length ⌈/⌉ maxAmong) ∧
      ((∃ value rest names, values = visits.map Facet.Visit.value ++ value :: rest ∧
          identsIn "id" names = [] ∧
          responder.exchanges run.asked state = visits.flatMap (Facet.Visit.exchanges facet) ++
            [(facet.nameSelect value, .ok names)] ∧
          run.result = .ok (some .empty) ∧ run.counted = [.shortCircuit facet]) ∨
        (values = visits.map Facet.Visit.value ∧
          responder.exchanges run.asked state = visits.flatMap (Facet.Visit.exchanges facet) ∧
          (∃ set, run.result = .ok (some set) ∧ set.IsSorted ∧
            ∀ id, id ∈ set.ids ↔ ∀ visit ∈ visits, id ∈ visit.works) ∧
          run.counted = []))) ∧
    ∀ answer : Select → List Record,
      (∀ select state, (responder select state).1 = .ok (answer select)) →
        (run.counted = [.shortCircuit facet] ↔
          ∃ value ∈ values, identsIn "id" (answer (facet.nameSelect value)) = []) := by
  intro run
  obtain ⟨result, hresult⟩ : ∃ result, run.result = .ok result :=
    exists_result_of_answered hanswers _ state
  have hcourse : Course ((Field.facet facet).candidates values)
      (responder.exchanges run.asked state) run.counted run.result := course_run _ responder state
  rw [hresult] at hcourse
  -- The course of the lookup tells what was asked; the visits are read off it, value by value.
  obtain ⟨sets, hsets, rfl⟩ := Facet.course_candidates hvalues hcourse
  obtain ⟨visits, hvisits, hend⟩ := Facet.course_setsOf hsets
  constructor
  · refine ⟨visits, fun visit hvisit => ⟨hvisits visit hvisit,
      (hvisits visit hvisit).length_exchanges facet⟩, hend.imp ?_ ?_⟩
    · rintro ⟨value, rest, names, hsplit, hnone, hexchanges, hcounted, rfl⟩
      exact ⟨value, rest, names, hsplit, hnone, hexchanges, hresult, hcounted⟩
    · rintro ⟨hvisited, hexchanges, hcounted, rfl⟩
      have hsome : visits ≠ [] := by
        rintro rfl
        exact hvalues hvisited
      obtain ⟨set, hmeet, hset⟩ := Candidates.exists_meet_ofList hsome Facet.Visit.works
      exact ⟨hvisited, hexchanges, ⟨set, hresult.trans (congrArg Except.ok hmeet), hset⟩, hcounted⟩
  intro answer hanswer
  -- With fixed answers, what was heard for a name is what any run hears for it.
  have hnames : ∀ value names,
      (facet.nameSelect value, .ok names) ∈ responder.exchanges run.asked state →
        answer (facet.nameSelect value) = names := by
    intro value names hexchange
    have hsame := Responder.answer_of_mem_exchanges
      (fun select state => hanswer select state) hexchange
    exact Except.ok.inj hsame
  rcases hend with ⟨value, rest, names, rfl, hnone, hexchanges, hcounted, -⟩ |
    ⟨rfl, hexchanges, hcounted, -⟩
  · refine iff_of_true hcounted ⟨value, by simp, ?_⟩
    rw [hnames value names (by simp [hexchanges])]
    exact hnone
  · refine iff_of_false (by simp [hcounted]) ?_
    rintro ⟨value, hvalue, hnone⟩
    obtain ⟨visit, hvisit, rfl⟩ := List.mem_map.mp hvalue
    have hasked : (facet.nameSelect visit.value, .ok visit.names) ∈
        responder.exchanges run.asked state := by
      rw [hexchanges]
      exact List.mem_flatMap.mpr ⟨visit, hvisit, List.mem_cons_self⟩
    rw [hnames visit.value visit.names hasked] at hnone
    exact (hvisits visit hvisit).named hnone

/-- Of three tags the second has no name. -/
theorem facet_values_visited_missed :
    let responder := Responder.always fun select =>
      if select = Facet.tag.nameSelect "bat" then []
      else [[("id", .ofInt 1), ("manga_id", .ofInt 7)]]
    (((Field.facet .tag).candidates ["dog", "bat", "cat"]).run responder ()).counted =
      [.shortCircuit .tag] := by
  intro responder
  refine ((facet_values_visited responder (fun select state => ⟨_, rfl⟩) .tag (by simp) ()).2 _
    (Responder.answer_always _)).mpr ⟨"bat", by simp, ?_⟩
  rw [if_pos rfl]
  rfl

end ComicCatalog
