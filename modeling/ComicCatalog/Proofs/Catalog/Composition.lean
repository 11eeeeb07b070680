import ComicCatalog.Proofs.Catalog.Semantics
import ComicCatalog.Proofs.Query.Seams

/-! # Searching for two queries at once

Two queries with a blank between them ask for the values of both. What they find together
is what each finds alone, but for one case: an identifier can be typed in a spelling that
the database reads as the number of a work, such as `1.0`. Alone it finds that work;
beside a field of another kind, or another spelling, it is compared as a text and finds
nothing.
-/

namespace ComicCatalog

namespace Criteria

theorem entries_join {left : String} (hquote : '"' ∉ left.toList) (right : String) :
    (ofQuery (left ++ " " ++ right)).entries = (ofQuery left).entries ++ (ofQuery right).entries :=
  entries_append (Or.inl hquote)

/-- Two queries, the first without quotes, give a field their values one after the
other. -/
theorem values_join {left : String} (hquote : '"' ∉ left.toList) (right : String) (field : Field) :
    (ofQuery (left ++ " " ++ right)).values field =
      (ofQuery left).values field ++ (ofQuery right).values field :=
  values_append (Or.inl hquote) field

/-- The identifier values of two queries are spelled alike and, beside any other field,
as the identifier that is shown. -/
def SpelledAlike (left right : Criteria) (shown : Ident) : Prop :=
  ∃ spelling, (∀ value ∈ left.values .id ++ right.values .id, Ident.ofText value = spelling) ∧
    ((∃ field ≠ .id, left.values field ++ right.values field ≠ []) → spelling = shown)

end Criteria

namespace Database

variable {db : Database}

/-- Fitting two lists of values is fitting each, unless both spell a title phrase. -/
theorem fits_append {field : Field} {first second : List String} {id : Ident}
    (htitle : field = .title → first = [] ∨ second = []) :
    (first ++ second ≠ [] → db.Fits field (first ++ second) id) ↔
      (first ≠ [] → db.Fits field first id) ∧ (second ≠ [] → db.Fits field second id) := by
  have hall : ∀ P : String → Prop, (first ++ second ≠ [] → ∀ value ∈ first ++ second, P value) ↔
      (first ≠ [] → ∀ value ∈ first, P value) ∧ (second ≠ [] → ∀ value ∈ second, P value) := by
    intro P
    have hempty : ∀ values : List String, (values ≠ [] → ∀ value ∈ values, P value) ↔
        ∀ value ∈ values, P value := by
      intro values
      constructor
      · intro himplies value hvalue
        exact himplies (List.ne_nil_of_mem hvalue) value hvalue
      · intro hvalues _
        exact hvalues
    rw [hempty, hempty, hempty, List.forall_mem_append]
  cases field with
  | facet kind => exact hall fun value => db.Carries kind value id
  | id => exact hall fun value => id = Ident.ofText value
  | title =>
      rcases htitle rfl with rfl | rfl
      · simp
      · simp

/-- An identifier fits two queries at once if it fits each, unless both ask for a title. -/
theorem fitsAll_join {left right : String} (hquote : '"' ∉ left.toList)
    (htitle : (Criteria.ofQuery left).values .title = [] ∨
      (Criteria.ofQuery right).values .title = []) (id : Ident) :
    db.FitsAll (Criteria.ofQuery (left ++ " " ++ right)) id ↔
      db.FitsAll (Criteria.ofQuery left) id ∧ db.FitsAll (Criteria.ofQuery right) id := by
  unfold FitsAll
  rw [← forall_and]
  apply forall_congr'
  intro field
  rw [Criteria.values_join hquote]
  apply fits_append
  rintro rfl
  exact htitle

/-- Two queries yield together what each yields alone, if their identifiers are spelled
alike. -/
theorem yields_join (hsound : db.Sound) {left right : String} (hquote : '"' ∉ left.toList)
    (hleft : (Criteria.ofQuery left).isEmpty = false)
    (hright : (Criteria.ofQuery right).isEmpty = false)
    (htitle : (Criteria.ofQuery left).values .title = [] ∨
      (Criteria.ofQuery right).values .title = []) (work : Row) :
    db.Yields (Criteria.ofQuery (left ++ " " ++ right)) work ↔
      db.Yields (Criteria.ofQuery left) work ∧ db.Yields (Criteria.ofQuery right) work ∧
        Criteria.SpelledAlike (Criteria.ofQuery left) (Criteria.ofQuery right) work.ident := by
  constructor
  · rintro ⟨id, hrow, hfits⟩
    obtain ⟨hfitsLeft, hfitsRight⟩ := (fitsAll_join hquote htitle id).mp hfits
    refine ⟨⟨id, hrow, hfitsLeft⟩, ⟨id, hrow, hfitsRight⟩, id, ?_, ?_⟩
    · intro value hvalue
      rcases List.mem_append.mp hvalue with hvalue | hvalue
      · exact hfitsLeft.eq_ofText value hvalue
      · exact hfitsRight.eq_ofText value hvalue
    · rintro ⟨field, hne, hvalues⟩
      rw [← Criteria.values_join hquote] at hvalues
      exact hfits.eq_of_others hsound hrow ⟨field, hne, hvalues⟩
  · rintro ⟨⟨id, hrow, hfits⟩, ⟨id', hrow', hfits'⟩, spelling, hids, hothers⟩
    -- Both identifiers are the common spelling.
    have hid : id = spelling := by
      apply hfits.eq_spelling hsound hleft hrow
      · intro value hvalue
        exact hids value (List.mem_append_left _ hvalue)
      · rintro ⟨field, hne, hvalues⟩
        exact hothers ⟨field, hne, List.append_ne_nil_of_left_ne_nil hvalues _⟩
    have hid' : id' = spelling := by
      apply hfits'.eq_spelling hsound hright hrow'
      · intro value hvalue
        exact hids value (List.mem_append_right _ hvalue)
      · rintro ⟨field, hne, hvalues⟩
        exact hothers ⟨field, hne, List.append_ne_nil_of_right_ne_nil _ hvalues⟩
    refine ⟨id, hrow, (fitsAll_join hquote htitle id).mpr ⟨hfits, ?_⟩⟩
    rwa [hid, ← hid']

/-- Whole numbers are spelled alike wherever they name the same work. -/
theorem spelledAlike_of_spells {left right : Criteria} {work : Row}
    (hleft : ∀ value ∈ left.values .id, ∃ n, Ident.Spells value n)
    (hright : ∀ value ∈ right.values .id, ∃ n, Ident.Spells value n)
    (hyields : db.Yields left work) (hyields' : db.Yields right work) :
    Criteria.SpelledAlike left right work.ident := by
  have hshown : ∀ {criteria : Criteria}, (∀ value ∈ criteria.values .id, ∃ n, Ident.Spells value n) →
      db.Yields criteria work → ∀ value ∈ criteria.values .id, Ident.ofText value = work.ident := by
    rintro criteria hids ⟨id, hrow, hfits⟩ value hvalue
    obtain ⟨n, hn⟩ := hids value hvalue
    rw [← hfits.eq_ofText value hvalue, ofText_of_spells hn,
      Cell.rowNumber?_toString (isSigned_of_spells hn)] at hrow
    rw [ofText_of_spells hn, Row.ident, Option.some.inj hrow]
  refine ⟨work.ident, ?_, fun _ => rfl⟩
  intro value hvalue
  rcases List.mem_append.mp hvalue with hvalue | hvalue
  · exact hshown hleft hyields value hvalue
  · exact hshown hright hyields' value hvalue

end Database

/-! ## Joined searches -/

variable {db : Database}

theorem mem_shown_ids {works : List Row} {id : Ident} :
    some id ∈ (works.map db.entry).map Entry.id? ↔ ∃ work ∈ works, work.ident = id := by
  simp only [List.map_map, List.mem_map, Function.comp_apply, Database.id?_entry,
    Option.some.injEq]

/-- A search for two queries at once, at most one of which asks for a title, shows what
the searches for each show both, save for identifiers that are not spelled alike. Whole
numbers always are. -/
theorem search_join (hsound : db.Sound) {left right : String} (hquote : '"' ∉ left.toList)
    (hleft : (Criteria.ofQuery left).isEmpty = false)
    (hright : (Criteria.ofQuery right).isEmpty = false)
    (htitle : (Criteria.ofQuery left).values .title = [] ∨
      (Criteria.ofQuery right).values .title = [])
    {ofLeft ofRight ofBoth : List Entry}
    (hofLeft : (search Source.respond left (.database db)).result = .ok ofLeft)
    (hofRight : (search Source.respond right (.database db)).result = .ok ofRight)
    (hofBoth : (search Source.respond (left ++ " " ++ right) (.database db)).result = .ok ofBoth) :
    (∀ id, some id ∈ ofBoth.map Entry.id? ↔
      some id ∈ ofLeft.map Entry.id? ∧ some id ∈ ofRight.map Entry.id? ∧
        Criteria.SpelledAlike (Criteria.ofQuery left) (Criteria.ofQuery right) id) ∧
    ((∀ value ∈ (Criteria.ofQuery left).values .id ++ (Criteria.ofQuery right).values .id,
        ∃ n, Ident.Spells value n) →
      ∀ id, some id ∈ ofBoth.map Entry.id? ↔
        some id ∈ ofLeft.map Entry.id? ∧ some id ∈ ofRight.map Entry.id?) := by
  obtain ⟨leftWorks, -, hmemLeft, rfl⟩ := search_works hsound hofLeft
  obtain ⟨rightWorks, -, hmemRight, rfl⟩ := search_works hsound hofRight
  obtain ⟨bothWorks, -, hmemBoth, rfl⟩ := search_works hsound hofBoth
  have hboth : (Criteria.ofQuery (left ++ " " ++ right)).isEmpty = false := by
    rw [Criteria.isEmpty, Criteria.entries_join hquote]
    rw [Criteria.isEmpty, List.isEmpty_eq_false_iff] at hleft
    simp [hleft]
  -- An identifier that both searches show is that of one work.
  have hsame : ∀ id, (some id ∈ (leftWorks.map db.entry).map Entry.id? ∧
      some id ∈ (rightWorks.map db.entry).map Entry.id?) ↔
        ∃ work ∈ db.rows .works, work.ident = id ∧ db.Yields (Criteria.ofQuery left) work ∧
          db.Yields (Criteria.ofQuery right) work := by
    intro id
    rw [mem_shown_ids, mem_shown_ids]
    constructor
    · rintro ⟨⟨work, hwork, rfl⟩, other, hother, hident⟩
      obtain ⟨hrow, -, hyields⟩ := (hmemLeft work).mp hwork
      obtain ⟨hrow', -, hyields'⟩ := (hmemRight other).mp hother
      have hkey := key_eq_of_ident hident
      rw [hsound.eq_of_key hrow' hrow hkey] at hyields'
      exact ⟨work, hrow, rfl, hyields, hyields'⟩
    · rintro ⟨work, hrow, rfl, hyields, hyields'⟩
      exact ⟨⟨work, (hmemLeft work).mpr ⟨hrow, hleft, hyields⟩, rfl⟩, work,
        (hmemRight work).mpr ⟨hrow, hright, hyields'⟩, rfl⟩
  have hexact : ∀ id, some id ∈ (bothWorks.map db.entry).map Entry.id? ↔
      some id ∈ (leftWorks.map db.entry).map Entry.id? ∧
        some id ∈ (rightWorks.map db.entry).map Entry.id? ∧
          Criteria.SpelledAlike (Criteria.ofQuery left) (Criteria.ofQuery right) id := by
    intro id
    rw [← and_assoc, hsame, mem_shown_ids]
    constructor
    · rintro ⟨work, hwork, rfl⟩
      obtain ⟨hrow, -, hyields⟩ := (hmemBoth work).mp hwork
      obtain ⟨hyieldsLeft, hyieldsRight, halike⟩ :=
        (Database.yields_join hsound hquote hleft hright htitle work).mp hyields
      exact ⟨⟨work, hrow, rfl, hyieldsLeft, hyieldsRight⟩, halike⟩
    · rintro ⟨⟨work, hrow, rfl, hyieldsLeft, hyieldsRight⟩, halike⟩
      have hyields := (Database.yields_join hsound hquote hleft hright htitle work).mpr
        ⟨hyieldsLeft, hyieldsRight, halike⟩
      exact ⟨work, (hmemBoth work).mpr ⟨hrow, hboth, hyields⟩, rfl⟩
  refine ⟨hexact, ?_⟩
  intro hids id
  rw [hexact, ← and_assoc, and_iff_left_iff_imp]
  intro hshown
  obtain ⟨work, -, rfl, hyieldsLeft, hyieldsRight⟩ := (hsame id).mp hshown
  apply Database.spelledAlike_of_spells _ _ hyieldsLeft hyieldsRight
  · intro value hvalue
    exact hids value (List.mem_append_left _ hvalue)
  · intro value hvalue
    exact hids value (List.mem_append_right _ hvalue)

theorem search_join_sample :
    ∃ ofLeft ofRight ofBoth : List Entry,
      (search Source.respond "id:01" (.database .sample)).result = .ok ofLeft ∧
      (search Source.respond "tag:dog" (.database .sample)).result = .ok ofRight ∧
      (search Source.respond ("id:01" ++ " " ++ "tag:dog") (.database .sample)).result = .ok ofBoth ∧
      ∀ id, some id ∈ ofBoth.map Entry.id? ↔
        some id ∈ ofLeft.map Entry.id? ∧ some id ∈ ofRight.map Entry.id? := by
  have hshort : ∀ query, (Criteria.ofQuery query).values .title = [] →
      ∃ entries, (search Source.respond query (.database .sample)).result = .ok entries :=
    fun query htitle => exists_search_result
      (search_answered Database.sample_sound fun hpresent => absurd htitle hpresent)
  obtain ⟨ofLeft, hofLeft⟩ := hshort "id:01" (by cbv)
  obtain ⟨ofRight, hofRight⟩ := hshort "tag:dog" (by cbv)
  obtain ⟨ofBoth, hofBoth⟩ := hshort ("id:01" ++ " " ++ "tag:dog") (by cbv)
  have hids : (Criteria.ofQuery "id:01").values .id ++ (Criteria.ofQuery "tag:dog").values .id =
      ["01"] := by cbv
  refine ⟨ofLeft, ofRight, ofBoth, hofLeft, hofRight, hofBoth, ?_⟩
  refine (search_join Database.sample_sound (by decide) (by cbv) (by cbv) (Or.inl (by cbv))
    hofLeft hofRight hofBoth).2 ?_
  intro value hvalue
  rw [hids, List.mem_singleton] at hvalue
  subst hvalue
  exact ⟨1, by cbv⟩

end ComicCatalog
