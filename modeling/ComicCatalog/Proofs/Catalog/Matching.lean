import ComicCatalog.Proofs.Catalog.Selects
import ComicCatalog.Proofs.Lookup.Outcome
import ComicCatalog.Proofs.Store.Soundness
import ComicCatalog.Proofs.Work.Candidates

/-! # What a query is matched by

The candidates of every field are exactly the identifiers that fit its values, and the
works of a query are exactly those that fit all of its fields. A field is emptied early
only by a value that nothing fits.
-/

namespace ComicCatalog

open Lookup

/-! ## Identifiers that fit -/

namespace Database

/-- A name of the facet equals the value up to case, and a link ties the identifier to
it. -/
def Carries (db : Database) (facet : Facet) (value : String) (id : Ident) : Prop :=
  ∃ name ∈ db.rows (.names facet), (name.cell (.column 0)).folded? = some (Text.fold value) ∧
    ∃ link ∈ db.rows (.links facet), (link.cell (.column 1)).equals (.integer name.key) = true ∧
      Ident.ofJson? (link.cell (.column 0)).toJson = some id

/-- The identifier satisfies all the values of a field. -/
def Fits (db : Database) (field : Field) (values : List String) (id : Ident) : Prop :=
  match field with
  | .facet kind => ∀ value ∈ values, db.Carries kind value id
  | .title => ∃ work ∈ db.rows .works, TitleFinds (" ".intercalate values) work ∧ id = work.ident
  | .id => ∀ value ∈ values, id = Ident.ofText value

end Database

variable {db : Database}

/-! ## Facets -/

namespace Facet

variable (facet : Facet)

/-- The works that are linked to any of the names. -/
theorem resultOn_worksLinkedTo {names : List Row}
    (hwords : ∀ name ∈ names, Word.isSigned name.key = true) :
    ∃ set, (facet.worksLinkedTo (names.map Row.ident)).resultOn db = .ok set ∧ set.IsSet ∧
      ∀ id, id ∈ set.ids ↔ ∃ name ∈ names, ∃ link ∈ db.rows (.links facet),
        (link.cell (.column 1)).equals (.integer name.key) = true ∧
          Ident.ofJson? (link.cell (.column 0)).toJson = some id := by
  have hlinks := resultOn_rowsAmong ((names.map Row.ident).map Ident.text)
    fun piece => @Database.answer_linksByName db facet _ piece
  generalize hfound : rowsAmong _ _ _ = found at hlinks
  refine ⟨.ofList (identsIn "manga_id" (found.map (Database.record (.links facet) [.column 0]))),
    ?_, Candidates.isSet_ofList _, ?_⟩
  · rw [worksLinkedTo, resultOn_bind_of_ok hlinks]
    rfl
  · intro id
    have hlabels : ([Slot.column 0].map (Table.links facet).label).Nodup := by simp
    rw [Candidates.mem_ofList]
    show id ∈ identsIn ((Table.links facet).label (.column 0)) _ ↔ _
    rw [identsIn_records hlabels (by simp), ← hfound]
    simp only [List.mem_filterMap, mem_rowsAmong, List.map_map, List.mem_map, Function.comp_apply]
    constructor
    · rintro ⟨link, ⟨hlink, text, ⟨name, hname, rfl⟩, hequals⟩, hid⟩
      rw [Row.ident, Cell.operand_toString (hwords name hname)] at hequals
      exact ⟨name, hname, link, hlink, hequals, hid⟩
    · rintro ⟨name, hname, link, hlink, hequals, hid⟩
      refine ⟨link, ⟨hlink, name.ident.text, ⟨name, hname, rfl⟩, ?_⟩, hid⟩
      rwa [Row.ident, Cell.operand_toString (hwords name hname)]

/-- The names of the facet that equal a value up to case. -/
def named (db : Database) (value : String) : List Row :=
  (db.rows (.names facet)).filter fun row =>
    (row.cell (.column 0)).folded? == some (Text.fold value)

theorem mem_named {value : String} {name : Row} :
    name ∈ facet.named db value ↔ name ∈ db.rows (.names facet) ∧
      (name.cell (.column 0)).folded? = some (Text.fold value) := by
  rw [named, List.mem_filter, beq_iff_eq]

theorem identsIn_named (value : String) :
    identsIn "id" ((facet.named db value).map (Database.record (.names facet) [.key])) =
      (facet.named db value).map Row.ident := by
  have hlabels : ([Slot.key].map (Table.names facet).label).Nodup := by simp
  show identsIn ((Table.names facet).label .key) _ = _
  rw [identsIn_records hlabels (by simp)]
  simp only [ident_of_key, List.filterMap_eq_map']

theorem resultOn_nameSelect (value : String) :
    (fetch (facet.nameSelect value)).resultOn db =
      .ok ((facet.named db value).map (Database.record (.names facet) [.key])) := by
  rw [resultOn_fetch, Database.answer_nameSelect]
  rfl

/-- A value that no name equals ends the lookup. -/
theorem resultOn_setsOf_of_unnamed {value : String} (hnamed : facet.named db value = [])
    (rest : List String) : (facet.setsOf (value :: rest)).resultOn db = .ok none := by
  have hidents := @identsIn_named db facet value
  rw [hnamed, List.map_nil, List.map_nil] at hidents
  rw [setsOf, resultOn_bind_of_ok (facet.resultOn_nameSelect value), hnamed, List.map_nil]
  simp only [hidents]
  rfl

/-- A value that names equal has the works that are linked to them. -/
theorem resultOn_setsOf_of_named {value : String} (hnamed : facet.named db value ≠ [])
    (rest : List String) {works : Candidates} {others : Option (List Candidates)}
    (hworks : (facet.worksLinkedTo ((facet.named db value).map Row.ident)).resultOn db = .ok works)
    (hothers : (facet.setsOf rest).resultOn db = .ok others) :
    (facet.setsOf (value :: rest)).resultOn db = .ok (others.map (works :: ·)) := by
  have hidents := @identsIn_named db facet value
  rw [setsOf, resultOn_bind_of_ok (facet.resultOn_nameSelect value)]
  obtain ⟨first, more, hcons⟩ := List.exists_cons_of_ne_nil hnamed
  simp only [hcons, List.map_cons] at hidents hworks ⊢
  simp only [hidents]
  rw [resultOn_bind_of_ok hworks, resultOn_bind_of_ok hothers]
  rfl

/-- The candidates of the values one by one, unless nothing fits some value. -/
theorem resultOn_setsOf (hsound : db.Sound) (values : List String) :
    ∃ result, (facet.setsOf values).resultOn db = .ok result ∧
      (result = none → ∃ value ∈ values, ∀ id, ¬ db.Carries facet value id) ∧
      ∀ sets, result = some sets → sets.length = values.length ∧ (∀ set ∈ sets, set.IsSet) ∧
        ∀ id, (∀ set ∈ sets, id ∈ set.ids) ↔ ∀ value ∈ values, db.Carries facet value id := by
  induction values with
  | nil =>
      refine ⟨some [], rfl, by rintro ⟨⟩, ?_⟩
      rintro sets ⟨⟩
      simp
  | cons value rest ih =>
      obtain ⟨others, hothers, hnone, hsome⟩ := ih
      by_cases hnamed : facet.named db value = []
      · -- The values behind this one are not looked up, and nothing fits this one.
        refine ⟨none, facet.resultOn_setsOf_of_unnamed hnamed rest, fun _ => ?_, by rintro sets ⟨⟩⟩
        refine ⟨value, List.mem_cons_self, ?_⟩
        rintro id ⟨name, hname, hfolded, -⟩
        have hmem := facet.mem_named.mpr ⟨hname, hfolded⟩
        rw [hnamed] at hmem
        cases hmem
      · have hwords : ∀ name ∈ facet.named db value, Word.isSigned name.key = true :=
          fun name hname => hsound.keys_isSigned _ name (facet.mem_named.mp hname).1
        obtain ⟨works, hworks, hisSet, hfits⟩ := facet.resultOn_worksLinkedTo hwords
        have hcarries : ∀ id, id ∈ works.ids ↔ db.Carries facet value id := by
          intro id
          simp only [hfits, mem_named, and_assoc]
          rfl
        refine ⟨_, facet.resultOn_setsOf_of_named hnamed rest hworks hothers, ?_, ?_⟩
        · intro hothers
          obtain ⟨bad, hbad, hfails⟩ := hnone (Option.map_eq_none_iff.mp hothers)
          exact ⟨bad, List.mem_cons_of_mem value hbad, hfails⟩
        · intro all hall
          obtain ⟨sets, rfl, rfl⟩ := Option.map_eq_some_iff.mp hall
          obtain ⟨hlength, hsets, hmem⟩ := hsome sets rfl
          refine ⟨congrArg Nat.succ hlength, ?_, ?_⟩
          · intro set hset
            rcases List.mem_cons.mp hset with rfl | hset
            · exact hisSet
            · exact hsets set hset
          · intro id
            rw [List.forall_mem_cons, List.forall_mem_cons, hcarries, hmem]

/-- The candidates of a facet are the identifiers that carry all of its values. -/
theorem resultOn_candidates (hsound : db.Sound) {values : List String} (hvalues : values ≠ []) :
    ∃ set, (facet.candidates values).resultOn db = .ok (some set) ∧ set.IsSet ∧
      ∀ id, id ∈ set.ids ↔ ∀ value ∈ values, db.Carries facet value id := by
  obtain ⟨result, hresult, hempty, hfull⟩ := facet.resultOn_setsOf hsound values
  cases result with
  | none =>
      obtain ⟨bad, hbad, hnone⟩ := hempty rfl
      refine ⟨.empty, ?_, List.nodup_nil, ?_⟩
      · rw [candidates, resultOn_bind_of_ok hresult]
        rfl
      · intro id
        constructor
        · intro hid
          cases hid
        · intro hall
          exact absurd (hall bad hbad) (hnone id)
  | some sets =>
      obtain ⟨hlength, hsets, hall⟩ := hfull sets rfl
      cases hmeet : Candidates.meet sets with
      | none =>
          -- Only no sets at all have no meet, and there is a set for every value.
          rw [Candidates.meet_eq_none.mp hmeet] at hlength
          exact absurd (List.eq_nil_of_length_eq_zero hlength.symm) hvalues
      | some set =>
          refine ⟨set, ?_, Candidates.isSet_meet hmeet hsets, ?_⟩
          · rw [candidates, resultOn_bind_of_ok hresult]
            exact congrArg Except.ok hmeet
          · intro id
            rw [Candidates.mem_meet hmeet, hall]

end Facet

/-! ## Fields -/

/-- The works whose title has the phrase of the values. -/
theorem resultOn_titleCandidates {values : List String} {set : Candidates}
    (hset : (titleCandidates values).resultOn db = .ok set) :
    set.IsSet ∧ ∀ id, id ∈ set.ids ↔ db.Fits .title values id := by
  obtain ⟨rows, hrows, hset⟩ := resultOn_bind_eq_ok.mp hset
  rw [resultOn_fetch] at hrows
  obtain ⟨passing, hpassing, rfl⟩ := Database.answer_titleSelect hrows
  cases hset
  refine ⟨Candidates.isSet_ofList _, ?_⟩
  intro id
  have hlabels : ([Slot.key].map Table.works.label).Nodup := by simp
  rw [Candidates.mem_ofList]
  show id ∈ identsIn (Table.works.label .key) _ ↔ _
  rw [identsIn_records hlabels (by simp)]
  simp only [ident_of_key, List.mem_filterMap, List.mem_filter, hpassing, Option.some.injEq,
    Database.Fits]
  constructor
  · rintro ⟨work, ⟨hwork, htitle⟩, rfl⟩
    exact ⟨work, hwork, htitle, rfl⟩
  · rintro ⟨work, hwork, htitle, rfl⟩
    exact ⟨work, ⟨hwork, htitle⟩, rfl⟩

theorem idCandidates_spec {values : List String} (hvalues : values ≠ []) :
    ∃ set, idCandidates values = some set ∧ set.IsSet ∧ ∀ id, id ∈ set.ids ↔ db.Fits .id values id := by
  cases hmeet : idCandidates values with
  | none =>
      have hnil := Candidates.meet_eq_none.mp hmeet
      exact absurd (List.map_eq_nil_iff.mp hnil) hvalues
  | some set =>
      refine ⟨set, rfl, Candidates.isSet_meet hmeet ?_, ?_⟩
      · intro other hother
        obtain ⟨value, -, rfl⟩ := List.mem_map.mp hother
        exact Candidates.isSet_ofList _
      · intro id
        rw [Candidates.mem_meet hmeet]
        simp [Database.Fits]

/-- The candidates of a field with values are the identifiers that fit them. -/
theorem Field.resultOn_candidates (hsound : db.Sound) {field : Field} {values : List String}
    {result : Option Candidates} (hvalues : values ≠ [])
    (hresult : (field.candidates values).resultOn db = .ok result) :
    ∃ set, result = some set ∧ set.IsSet ∧ ∀ id, id ∈ set.ids ↔ db.Fits field values id := by
  have hne : values.isEmpty = false := by simpa using hvalues
  unfold Field.candidates at hresult
  rw [if_neg (by simp [hne])] at hresult
  cases field with
  | facet kind =>
      obtain ⟨set, hset, hspec⟩ := kind.resultOn_candidates hsound hvalues
      rw [resultOn_mapError, hset] at hresult
      cases hresult
      exact ⟨set, rfl, hspec⟩
  | title =>
      rw [resultOn_mapError_eq_ok, resultOn_map] at hresult
      cases hset : (titleCandidates values).resultOn db with
      | error failure =>
          rw [hset] at hresult
          cases hresult
      | ok set =>
          rw [hset] at hresult
          cases hresult
          exact ⟨set, rfl, resultOn_titleCandidates hset⟩
  | id =>
      obtain ⟨set, hset, hspec⟩ := @idCandidates_spec db values hvalues
      rw [resultOn_pure, hset] at hresult
      cases hresult
      exact ⟨set, rfl, hspec⟩

namespace Criteria

/-- A field takes part exactly if it has values. -/
theorem resultOn_candidatesOf (hsound : db.Sound) (criteria : Criteria) {fields : List Field}
    {sets : List (Option Candidates)} (hsets : (criteria.candidatesOf fields).resultOn db = .ok sets) :
    ((∀ set ∈ sets, set = none) ↔ ∀ field ∈ fields, criteria.values field = []) ∧
      (∀ set, some set ∈ sets → set.IsSet) ∧
        ∀ id, (∀ set, some set ∈ sets → id ∈ set.ids) ↔
          ∀ field ∈ fields, criteria.values field ≠ [] → db.Fits field (criteria.values field) id := by
  induction fields generalizing sets with
  | nil =>
      cases hsets
      simp
  | cons field rest ih =>
      obtain ⟨first, hfirst, hmore⟩ := resultOn_bind_eq_ok.mp hsets
      obtain ⟨others, hothers, hresult⟩ := resultOn_bind_eq_ok.mp hmore
      cases hresult
      obtain ⟨hnone, hisSet, hall⟩ := ih hothers
      by_cases hvalues : criteria.values field = []
      · -- A field without values adds no set and asks for nothing.
        have hempty : first = none := by
          rw [hvalues] at hfirst
          cases hfirst
          rfl
        subst hempty
        simpa [hvalues] using ⟨hnone, hisSet, hall⟩
      · obtain ⟨set, rfl, hset, hfits⟩ := Field.resultOn_candidates hsound hvalues hfirst
        refine ⟨by simp [hvalues], ?_, ?_⟩
        · intro other hother
          rcases List.mem_cons.mp hother with hsame | hother
          · cases hsame
            exact hset
          · exact hisSet other hother
        · intro id
          simp only [List.mem_cons, Option.some.injEq, forall_eq_or_imp, hfits, hall, hvalues,
            ne_eq, not_false_eq_true, forall_const]

theorem isEmpty_iff (criteria : Criteria) :
    criteria.isEmpty = true ↔ ∀ field, criteria.values field = [] := by
  constructor
  · intro hempty field
    simp [values, List.isEmpty_iff.mp hempty]
  · intro hvalues
    cases hentries : criteria.entries with
    | nil => simp [isEmpty, hentries]
    | cons entry rest =>
        have hnone := hvalues entry.1
        simp [values, hentries] at hnone

theorem exists_values {criteria : Criteria} (hpresent : criteria.isEmpty = false) :
    ∃ field, criteria.values field ≠ [] := by
  by_contra hnone
  push Not at hnone
  rw [criteria.isEmpty_iff.mpr hnone] at hpresent
  cases hpresent

/-- The works of a query are the identifiers that fit all of its fields, each once. -/
theorem resultOn_works (hsound : db.Sound) (criteria : Criteria) {ids : List Ident}
    (hids : criteria.works.resultOn db = .ok ids) :
    ids.Nodup ∧ ∀ id, id ∈ ids ↔ criteria.isEmpty = false ∧
      ∀ field, criteria.values field ≠ [] → db.Fits field (criteria.values field) id := by
  obtain ⟨sets, hsets, hresult⟩ := resultOn_bind_eq_ok.mp hids
  obtain ⟨hnone, hisSet, hall⟩ := criteria.resultOn_candidatesOf hsound hsets
  have hfields : ∀ field : Field, field ∈ Field.all := Field.mem_all
  cases hmeet : Candidates.meetPresent sets with
  | none =>
      rw [hmeet] at hresult
      cases hresult
      have hempty : criteria.isEmpty = true := criteria.isEmpty_iff.mpr fun field =>
        hnone.mp (Candidates.meetPresent_eq_none.mp hmeet) field (hfields field)
      simp [hempty]
  | some set =>
      rw [hmeet] at hresult
      cases hresult
      have hpresent : criteria.isEmpty = false := by
        rw [Bool.eq_false_iff]
        intro hempty
        have habsent := Candidates.meetPresent_eq_none.mpr
          (hnone.mpr fun field _ => criteria.isEmpty_iff.mp hempty field)
        rw [hmeet] at habsent
        cases habsent
      refine ⟨Candidates.isSet_meetPresent hmeet hisSet, ?_⟩
      intro id
      rw [Candidates.mem_meetPresent hmeet, hall]
      simp [hpresent, hfields]

/-! ## Queries that are answered -/

/-- The phrase of a query's title values is not too long for the database. -/
def HasShortPhrase (criteria : Criteria) : Prop :=
  criteria.values .title ≠ [] → Pattern.IsShort (" ".intercalate (criteria.values .title))

theorem exists_fieldCandidates (hsound : db.Sound) {criteria : Criteria}
    (hshort : criteria.HasShortPhrase) (field : Field) :
    ∃ result, (field.candidates (criteria.values field)).resultOn db = .ok result := by
  by_cases hvalues : criteria.values field = []
  · rw [hvalues]
    exact ⟨none, rfl⟩
  · have hne : (criteria.values field).isEmpty = false := by simpa using hvalues
    unfold Field.candidates
    rw [if_neg (by simp [hne])]
    cases field with
    | facet kind =>
        obtain ⟨set, hset, -⟩ := kind.resultOn_candidates hsound hvalues
        exact ⟨some set, resultOn_mapError_eq_ok.mpr hset⟩
    | title =>
        obtain ⟨passing, -, hanswer⟩ := db.answer_titleSelect_of_isShort (hshort hvalues)
        have hset : ∃ set, (titleCandidates (criteria.values .title)).resultOn db = .ok set := by
          rw [titleCandidates, resultOn_bind, resultOn_fetch, hanswer]
          exact ⟨_, rfl⟩
        obtain ⟨set, hset⟩ := hset
        refine ⟨some set, ?_⟩
        show ((some <$> titleCandidates (criteria.values .title)).mapError SearchError.store).resultOn db = _
        rw [resultOn_mapError, resultOn_map, hset]
        rfl
    | id => exact ⟨_, rfl⟩

theorem exists_candidatesOf (hsound : db.Sound) {criteria : Criteria}
    (hshort : criteria.HasShortPhrase) (fields : List Field) :
    ∃ sets, (criteria.candidatesOf fields).resultOn db = .ok sets := by
  induction fields with
  | nil => exact ⟨[], rfl⟩
  | cons field rest ih =>
      obtain ⟨first, hfirst⟩ := exists_fieldCandidates hsound hshort field
      obtain ⟨others, hothers⟩ := ih
      refine ⟨first :: others, ?_⟩
      rw [candidatesOf, resultOn_bind_of_ok hfirst, resultOn_bind_of_ok hothers]
      rfl

/-- Only a phrase that is too long keeps a query from being resolved. -/
theorem exists_works (hsound : db.Sound) {criteria : Criteria} (hshort : criteria.HasShortPhrase) :
    ∃ ids, criteria.works.resultOn db = .ok ids := by
  obtain ⟨sets, hsets⟩ := exists_candidatesOf hsound hshort Field.all
  cases hmeet : Candidates.meetPresent sets with
  | none => exact ⟨[], resultOn_bind_eq_ok.mpr ⟨sets, hsets, by simp only [hmeet, resultOn_pure]⟩⟩
  | some set =>
      exact ⟨set.ids, resultOn_bind_eq_ok.mpr ⟨sets, hsets, by simp only [hmeet, resultOn_pure]⟩⟩

end Criteria

end ComicCatalog
