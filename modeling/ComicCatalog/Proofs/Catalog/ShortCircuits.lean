import ComicCatalog.Proofs.Catalog.Asking

/-! # Facets that are cut short

A facet is counted where a value of it is looked up and no name with an identifier is
found. This ends the lookups of the facet, so that no query counts a facet twice, and a
query that is resolved has found a name for every value of each facet that it has not
counted.
-/

namespace ComicCatalog

open Lookup

/-! ## Values and their names -/

namespace Facet

variable {facet other : Facet} {value : String} {exchanges first second : List Exchange}

/-- A lookup of the value was answered without a usable name. -/
def Missed (facet : Facet) (value : String) (exchanges : List Exchange) : Prop :=
  ∃ rows, (facet.nameSelect value, .ok rows) ∈ exchanges ∧ identsIn "id" rows = []

/-- A lookup of the value was answered with a usable name. -/
def Found (facet : Facet) (value : String) (exchanges : List Exchange) : Prop :=
  ∃ rows, (facet.nameSelect value, .ok rows) ∈ exchanges ∧ identsIn "id" rows ≠ []

theorem missed_append :
    facet.Missed value (first ++ second) ↔ facet.Missed value first ∨ facet.Missed value second := by
  unfold Missed
  simp only [List.mem_append, or_and_right, exists_or]

theorem missed_singleton {exchange : Exchange} :
    facet.Missed value [exchange] ↔
      ∃ rows, exchange = (facet.nameSelect value, .ok rows) ∧ identsIn "id" rows = [] := by
  unfold Missed
  simp only [List.mem_singleton, eq_comm]

theorem Found.mono (hfound : facet.Found value first) (hsub : first ⊆ second) :
    facet.Found value second := by
  obtain ⟨rows, hrows, hidents⟩ := hfound
  exact ⟨rows, hsub hrows, hidents⟩

/-- The facet is counted, or all of the values are found. -/
def Settled (facet : Facet) (values : List String) (exchanges : List Exchange) (counted : Tally) :
    Prop :=
  .shortCircuit facet ∈ counted ∨ ∀ value ∈ values, facet.Found value exchanges

theorem Settled.mono {values : List String} {counted wider : Tally}
    (hsettled : facet.Settled values first counted) (hsub : first ⊆ second)
    (hwider : counted ⊆ wider) : facet.Settled values second wider :=
  hsettled.imp (fun hcounted => hwider hcounted) fun hfound value hvalue =>
    (hfound value hvalue).mono hsub

theorem namesTable_injective (htable : facet.namesTable = other.namesTable) : facet = other := by
  cases facet <;> cases other <;> simp [namesTable] at htable ⊢

/-- A select for names tells what it looks up. -/
theorem nameSelect_injective {wanted : String}
    (hselect : facet.nameSelect value = other.nameSelect wanted) : facet = other ∧ value = wanted := by
  refine ⟨namesTable_injective (congrArg Select.table hselect), ?_⟩
  have hconditions := congrArg Select.conditions hselect
  simpa [nameSelect, Select.filtered, Select.ofColumns, Condition.equalsFolded] using hconditions

end Facet

theorem Select.IsAmong.ne_nameSelect {select : Select} (hselect : select.IsAmong) (facet : Facet)
    (value : String) : select ≠ facet.nameSelect value := by
  rintro rfl
  obtain ⟨column, values, hconditions, -⟩ := hselect
  simp [Facet.nameSelect, Select.filtered, Select.ofColumns, Condition.equalsFolded,
    Condition.oneOf] at hconditions

/-- Names are asked for the values of their facet only. -/
theorem Field.Asks.name_cases {field : Field} {values : List String} {facet : Facet} {value : String}
    (hasks : field.Asks values (facet.nameSelect value)) : field = .facet facet ∧ value ∈ values := by
  generalize hselect : facet.nameSelect value = select at hasks
  cases hasks with
  | name hvalue =>
      obtain ⟨rfl, rfl⟩ := Facet.nameSelect_injective hselect
      exact ⟨rfl, hvalue⟩
  | title phrase =>
      have hconditions := congrArg Select.conditions hselect
      simp [Facet.nameSelect, titleSelect, Select.filtered, Select.ofColumns,
        Condition.equalsFolded, Condition.contains] at hconditions
  | among hamong => exact absurd hselect.symm (hamong.ne_nameSelect facet value)

/-! ## Which facets are counted -/

namespace Lookup

variable {ε δ α β : Type}

/-- Facets are counted where a value of theirs is missed, and nowhere else. -/
structure CountsMisses (lookup : Lookup ε α) : Prop where
  of_course : ∀ {exchanges : List Exchange} {counted : Tally} {result : Except ε α},
    Course lookup exchanges counted result →
      ∀ facet, .shortCircuit facet ∈ counted ↔ ∃ value, facet.Missed value exchanges

namespace CountsMisses

variable {lookup : Lookup ε α}

/-- Lookups that count nothing and ask for no names. -/
theorem of_quiet (hcounts : CountsWithin [] lookup)
    (hasks : AsksOnly (fun select => ∀ (facet : Facet) value, select ≠ facet.nameSelect value) lookup) :
    CountsMisses lookup := by
  constructor
  intro exchanges counted result hcourse facet
  rw [List.sublist_nil.mp (hcounts.of_course hcourse)]
  refine ⟨nofun, ?_⟩
  rintro ⟨value, rows, hexchange, -⟩
  exact absurd rfl (hasks.of_course hcourse _ hexchange facet value)

theorem pure (found : α) : CountsMisses (pure found : Lookup ε α) :=
  of_quiet (.pure found) (.pure found)

theorem bind (hlookup : CountsMisses lookup) {rest : α → Lookup ε β}
    (hrest : ∀ found, CountsMisses (rest found)) : CountsMisses (lookup >>= rest) := by
  constructor
  intro exchanges counted result hcourse facet
  rcases hcourse.of_bind with ⟨error, -, hfirst⟩ |
    ⟨found, first, second, before, after, hfirst, hsecond, rfl, rfl⟩
  · exact hlookup.of_course hfirst facet
  · rw [List.mem_append, hlookup.of_course hfirst facet, (hrest found).of_course hsecond facet]
    simp only [Facet.missed_append, exists_or]

theorem mapError (hlookup : CountsMisses lookup) (f : ε → δ) : CountsMisses (lookup.mapError f) := by
  constructor
  intro exchanges counted result hcourse
  obtain ⟨inner, -, hcourse⟩ := hcourse.of_mapError
  exact hlookup.of_course hcourse

/-- Lookups among many values count nothing. -/
theorem of_isAmong (hcounts : CountsWithin [] lookup) (hasks : AsksOnly Select.IsAmong lookup) :
    CountsMisses lookup :=
  of_quiet hcounts (hasks.mono fun _ => Select.IsAmong.ne_nameSelect)

end CountsMisses

end Lookup

namespace Facet

variable (facet : Facet)

theorem countsWithin_worksLinkedTo (names : List Ident) :
    CountsWithin [] (facet.worksLinkedTo names) := by
  apply (CountsWithin.among _ _ _).bind
  intro links
  apply CountsWithin.pure

theorem countsWithin_setsOf (values : List String) :
    CountsWithin [.shortCircuit facet] (facet.setsOf values) := by
  induction values with
  | nil => exact (CountsWithin.pure _).widen (List.nil_sublist _)
  | cons value rest ih =>
      apply (CountsWithin.fetch _).bind
      intro names
      cases identsIn "id" names with
      | nil =>
          apply (CountsWithin.tick _).bind
          intro _
          apply CountsWithin.pure
      | cons ident idents =>
          apply (facet.countsWithin_worksLinkedTo (ident :: idents)).bind
          intro works
          apply ih.bind
          intro sets
          apply CountsWithin.pure

theorem countsWithin_candidates (values : List String) :
    CountsWithin [.shortCircuit facet] (facet.candidates values) := by
  apply (facet.countsWithin_setsOf values).bind
  intro sets
  cases sets with
  | none => exact CountsWithin.pure _
  | some sets => exact CountsWithin.pure _

theorem countsWithin_namesByWork (works : List String) : CountsWithin [] (facet.namesByWork works) := by
  apply (CountsWithin.among _ _ _).bind
  intro links
  apply (CountsWithin.among _ _ _).bind
  intro names
  apply CountsWithin.pure

/-- The lookup of one value, and what comes after it. -/
theorem course_setsOf_cons {value : String} {rest : List String} {exchanges : List Exchange}
    {counted : Tally} {result : Except StoreError (Option (List Candidates))}
    (hcourse : Course (facet.setsOf (value :: rest)) exchanges counted result) :
    (∃ failure, exchanges = [(facet.nameSelect value, .error failure)] ∧ counted = [] ∧
      result = .error failure) ∨
    (∃ rows, identsIn "id" rows = [] ∧ exchanges = [(facet.nameSelect value, .ok rows)] ∧
      counted = [.shortCircuit facet] ∧ result = .ok none) ∨
    ∃ rows others, identsIn "id" rows ≠ [] ∧ exchanges = (facet.nameSelect value, .ok rows) :: others ∧
      Course (do
        let works ← facet.worksLinkedTo (identsIn "id" rows)
        let sets ← facet.setsOf rest
        pure (sets.map (works :: ·))) others counted result := by
  rw [setsOf] at hcourse
  rcases hcourse.of_bind with ⟨failure, rfl, hfetch⟩ |
    ⟨rows, first, second, before, after, hfetch, hrest, rfl, rfl⟩
  · obtain ⟨hexchanges, hcounted⟩ := hfetch.of_fetch
    exact Or.inl ⟨failure, hexchanges, hcounted, rfl⟩
  obtain ⟨rfl, rfl⟩ := hfetch.of_fetch
  right
  cases hidents : identsIn "id" rows with
  | nil =>
      rw [hidents] at hrest
      rcases hrest.of_bind with ⟨error, -, htick⟩ |
        ⟨found, third, fourth, during, later, htick, hpure, rfl, rfl⟩
      · change Course (.count _ (.done ())) _ _ _ at htick
        cases htick with
        | count _ hdone => cases hdone
      · obtain ⟨rfl, rfl⟩ := htick.of_tick
        obtain ⟨rfl, rfl, rfl⟩ := hpure.of_pure
        exact Or.inl ⟨rows, hidents, rfl, rfl, rfl⟩
  | cons ident idents =>
      rw [hidents] at hrest
      refine Or.inr ⟨rows, second, by simp [hidents], rfl, ?_⟩
      rw [hidents]
      exact hrest

theorem countsMisses_setsOf (values : List String) : CountsMisses (facet.setsOf values) := by
  induction values with
  | nil => exact CountsMisses.pure _
  | cons value rest ih =>
      constructor
      intro exchanges counted result hcourse other
      rcases facet.course_setsOf_cons hcourse with ⟨failure, rfl, rfl, -⟩ |
        ⟨rows, hidents, rfl, rfl, -⟩ | ⟨rows, others, hidents, rfl, hrest⟩
      · simp [missed_singleton]
      · simp only [List.mem_singleton, missed_singleton]
        constructor
        · rintro ⟨⟩
          exact ⟨value, rows, rfl, hidents⟩
        · rintro ⟨wanted, found, hexchange, -⟩
          rw [(nameSelect_injective (congrArg Prod.fst hexchange)).1]
      · have hmisses : CountsMisses (do
            let works ← facet.worksLinkedTo (identsIn "id" rows)
            let sets ← facet.setsOf rest
            pure (sets.map (works :: ·))) := by
          apply CountsMisses.bind
          · exact .of_isAmong (facet.countsWithin_worksLinkedTo _) (facet.asksOnly_worksLinkedTo _)
          intro works
          apply ih.bind
          intro sets
          exact CountsMisses.pure _
        rw [hmisses.of_course hrest other, ← List.singleton_append]
        simp only [missed_append, missed_singleton, exists_or]
        refine (or_iff_right ?_).symm
        rintro ⟨wanted, found, hexchange, hnone⟩
        cases congrArg Prod.snd hexchange
        exact hidents hnone

/-- The sets of all values are there if every value was found. -/
theorem settled_setsOf {values : List String} {exchanges : List Exchange} {counted : Tally}
    {sets : Option (List Candidates)}
    (hcourse : Course (facet.setsOf values) exchanges counted (.ok sets)) :
    facet.Settled values exchanges counted := by
  induction values generalizing exchanges counted sets with
  | nil => exact Or.inr nofun
  | cons value rest ih =>
      rcases facet.course_setsOf_cons hcourse with ⟨failure, -, -, hresult⟩ |
        ⟨rows, -, -, rfl, -⟩ | ⟨rows, others, hidents, rfl, hrest⟩
      · cases hresult
      · exact Or.inl (List.mem_singleton_self _)
      obtain ⟨works, first, second, before, after, -, hmore, rfl, rfl⟩ := hrest.of_bind_ok
      obtain ⟨found, third, fourth, during, later, hsets, -, rfl, rfl⟩ := hmore.of_bind_ok
      have hothers : facet.Settled rest (first ++ (third ++ fourth)) (before ++ (during ++ later)) :=
        (ih hsets).mono
          (List.subset_append_of_subset_right _ (List.subset_append_left _ _))
          (List.subset_append_of_subset_right _ (List.subset_append_left _ _))
      apply hothers.imp_right
      intro hfound
      rw [List.forall_mem_cons]
      refine ⟨⟨rows, List.mem_cons_self, hidents⟩, ?_⟩
      intro other hother
      exact (hfound other hother).mono (List.subset_cons_self _ _)

theorem countsMisses_candidates (values : List String) : CountsMisses (facet.candidates values) := by
  apply (facet.countsMisses_setsOf values).bind
  intro sets
  cases sets with
  | none => exact CountsMisses.pure _
  | some sets => exact CountsMisses.pure _

end Facet

theorem countsWithin_annotate (rows : List Record) : CountsWithin [] (annotate rows) := by
  unfold annotate
  split
  · exact CountsWithin.pure []
  · apply (Facet.tag.countsWithin_namesByWork _).bind
    intro tags
    apply (Facet.artist.countsWithin_namesByWork _).bind
    intro artists
    apply CountsWithin.pure

theorem countsWithin_titleCandidates (values : List String) :
    CountsWithin [] (titleCandidates values) := by
  apply (CountsWithin.fetch _).bind
  intro rows
  apply CountsWithin.pure

/-! ## Queries -/

namespace Field

variable (field : Field)

/-- What the lookups of a field may count. -/
def shortCircuits : Tally :=
  (field.facet?.map Counter.shortCircuit).toList

theorem countsWithin_candidates (values : List String) :
    CountsWithin field.shortCircuits (field.candidates values) := by
  unfold Field.candidates
  split
  · exact (CountsWithin.pure none).widen (List.nil_sublist _)
  · cases field with
    | facet kind => exact (kind.countsWithin_candidates values).mapError SearchError.store
    | title => exact ((countsWithin_titleCandidates values).map some).mapError SearchError.store
    | id => exact CountsWithin.pure _

theorem countsMisses_candidates (values : List String) : CountsMisses (field.candidates values) := by
  have hasks := field.asksOnly_candidates values
  have hcounts := field.countsWithin_candidates values
  cases field with
  | facet kind =>
      unfold Field.candidates
      split
      · exact CountsMisses.pure none
      · exact (kind.countsMisses_candidates values).mapError SearchError.store
  | title =>
      apply CountsMisses.of_quiet hcounts
      apply hasks.mono
      rintro select hselect facet value rfl
      cases hselect.name_cases.1
  | id =>
      apply CountsMisses.of_quiet hcounts
      apply hasks.mono
      rintro select hselect facet value rfl
      cases hselect.name_cases.1

end Field

theorem Facet.settled_candidates (facet : Facet) {values : List String}
    {exchanges : List Exchange} {counted : Tally} {sets : Option Candidates}
    (hcourse : Course ((Field.facet facet).candidates values) exchanges counted (.ok sets)) :
    facet.Settled values exchanges counted := by
  unfold Field.candidates at hcourse
  split at hcourse
  next hvalues =>
    rw [List.isEmpty_iff.mp hvalues]
    exact Or.inr nofun
  next =>
    obtain ⟨found, first, second, before, after, hsets, -, rfl, rfl⟩ :=
      hcourse.of_mapError_ok.of_bind_ok
    exact (facet.settled_setsOf hsets).mono (List.subset_append_left _ _)
      (List.subset_append_left _ _)

namespace Criteria

variable (criteria : Criteria)

theorem countsWithin_candidatesOf (fields : List Field) :
    CountsWithin (fields.flatMap Field.shortCircuits) (criteria.candidatesOf fields) := by
  induction fields with
  | nil => exact CountsWithin.pure []
  | cons field rest ih =>
      rw [List.flatMap_cons, ← List.append_nil (rest.flatMap _)]
      apply (field.countsWithin_candidates _).bind
      intro first
      apply ih.bind
      intro others
      apply CountsWithin.pure

/-- The lookups of a query count each facet at most once. -/
theorem countsWithin_works : CountsWithin (Facet.all.map .shortCircuit) criteria.works := by
  have hfields : Field.all.flatMap Field.shortCircuits ++ [] = Facet.all.map .shortCircuit := by decide
  rw [← hfields]
  apply (criteria.countsWithin_candidatesOf Field.all).bind
  intro sets
  cases Candidates.meetPresent sets with
  | none => exact CountsWithin.pure []
  | some set => exact CountsWithin.pure set.ids

theorem countsMisses_candidatesOf (fields : List Field) :
    CountsMisses (criteria.candidatesOf fields) := by
  induction fields with
  | nil => exact CountsMisses.pure []
  | cons field rest ih =>
      apply (field.countsMisses_candidates _).bind
      intro first
      apply ih.bind
      intro others
      apply CountsMisses.pure

theorem countsMisses_works : CountsMisses criteria.works := by
  apply (criteria.countsMisses_candidatesOf Field.all).bind
  intro sets
  cases Candidates.meetPresent sets with
  | none => exact CountsMisses.pure []
  | some set => exact CountsMisses.pure set.ids

theorem settled_candidatesOf {fields : List Field} {facet : Facet}
    (hfield : .facet facet ∈ fields) {exchanges : List Exchange} {counted : Tally}
    {sets : List (Option Candidates)}
    (hcourse : Course (criteria.candidatesOf fields) exchanges counted (.ok sets)) :
    facet.Settled (criteria.values (.facet facet)) exchanges counted := by
  induction fields generalizing exchanges counted sets with
  | nil => cases hfield
  | cons field rest ih =>
      obtain ⟨set, first, second, before, after, hfirst, hmore, rfl, rfl⟩ := hcourse.of_bind_ok
      obtain ⟨others, third, fourth, during, later, hrest, -, rfl, rfl⟩ := hmore.of_bind_ok
      rcases List.mem_cons.mp hfield with rfl | hfield
      · exact (facet.settled_candidates hfirst).mono (List.subset_append_left _ _)
          (List.subset_append_left _ _)
      · exact (ih hfield hrest).mono
          (List.subset_append_of_subset_right _ (List.subset_append_left _ _))
          (List.subset_append_of_subset_right _ (List.subset_append_left _ _))

/-- A query that is resolved has settled each of its facets. -/
theorem settled_works {exchanges : List Exchange} {counted : Tally} {works : List Ident}
    (hcourse : Course criteria.works exchanges counted (.ok works)) (facet : Facet) :
    facet.Settled (criteria.values (.facet facet)) exchanges counted := by
  obtain ⟨sets, first, second, before, after, hsets, -, rfl, rfl⟩ := hcourse.of_bind_ok
  exact (criteria.settled_candidatesOf (Field.mem_all (.facet facet)) hsets).mono
    (List.subset_append_left _ _) (List.subset_append_left _ _)

end Criteria

end ComicCatalog
