import ComicCatalog.Proofs.Query.Segments
import ComicCatalog.Proofs.Query.Writing
import ComicCatalog.Proofs.Text.Places
import ComicCatalog.Web.Service

/-! # Values in normal form

Whatever a query says, the values that it asks for are in one form: there is something in
them, they have no blanks around them, and they are in lowercase. The percent sign
separates values, so it stands in a value only where a term is not cut: in title text that
starts with an unknown key.
-/

namespace ComicCatalog

/-! ## Where values come from -/

namespace Term

/-- What stands before the first colon of the term is the name of no field. -/
def IsUnknown (term : Term) : Prop :=
  ∃ key, term.key = some key ∧ Field.named? key = none

theorem Segmented.mem_of_mem {cs : List Char} {raws : List (List Char)}
    (hsegmented : Segmented cs raws) {raw : List Char} (hraw : raw ∈ raws) {c : Char} (hc : c ∈ raw) :
    c ∈ cs := by
  induction hsegmented with
  | blanks => cases hraw
  | term _ _ _ _ ih =>
      rcases List.mem_cons.mp hraw with rfl | hraw
      · exact List.mem_append_left _ (List.mem_append_right _ hc)
      · exact List.mem_append_right _ (ih hraw)

/-- The characters of a term stand in the query. -/
theorem mem_query_of_mem_raw {query : String} {term : Term} (hterm : term ∈ scan query) {c : Char}
    (hc : c ∈ term.raw.toList) : c ∈ query.toList := by
  obtain ⟨found, hfound, rfl⟩ := List.mem_map.mp hterm
  rw [toList_raw_ofLexeme] at hc
  exact (segmented_lexemes query.toList).mem_of_mem (List.mem_map_of_mem hfound) hc

/-- The characters behind the first colon of a term stand in the term. -/
theorem mem_raw_of_mem_value {query : String} {term : Term} (hterm : term ∈ scan query) {c : Char}
    (hc : c ∈ term.value.toList) : c ∈ term.raw.toList := by
  obtain ⟨found, -, rfl⟩ := List.mem_map.mp hterm
  rcases ofLexeme_cases found with ⟨key, -, hraw, -⟩ | ⟨-, hvalue, -⟩
  · rw [hraw, String.toList_append]
    exact List.mem_append_right _ hc
  · rwa [hvalue] at hc

end Term

namespace Criteria

/-- The value is the normal form of some characters of the term. They hold no percent
sign, unless the term as a whole is title text because its key is unknown. -/
def IsTakenFrom (term : Term) (field : Field) (value : String) : Prop :=
  ∃ cs : List Char, value = normal cs ∧ (∀ c ∈ cs, c ∈ term.raw.toList) ∧
    ('%' ∈ cs → field = .title ∧ term.IsUnknown ∧ cs = term.raw.toList)

theorem exists_of_mem_parts {value part : String} (hpart : part ∈ parts value) :
    ∃ cs : List Char, part = normal cs ∧ (∀ c ∈ cs, c ∈ value.toList) ∧ '%' ∉ cs := by
  obtain ⟨cs, hcs, rfl⟩ := List.mem_map.mp hpart
  obtain ⟨hpercent, hmem⟩ := Text.mem_splitOn hcs
  exact ⟨cs, rfl, fun c hc => Text.mem_of_mem_strip (hmem c hc), hpercent⟩

/-- The values of a term are taken from it, one case for each kind of term. -/
theorem isTakenFrom_of_mem_ofTerm {query : String} {term : Term} (hterm : term ∈ Term.scan query)
    {field : Field} {value : String} (hvalue : (field, value) ∈ ofTerm term) :
    IsTakenFrom term field value := by
  have hcut : ∀ part ∈ parts term.value, ∀ other : Field, IsTakenFrom term other part := by
    intro part hpart other
    obtain ⟨cs, hpart, hmem, hpercent⟩ := exists_of_mem_parts hpart
    exact ⟨cs, hpart, fun c hc => Term.mem_raw_of_mem_value hterm (hmem c hc),
      fun hc => absurd hc hpercent⟩
  unfold ofTerm at hvalue
  split at hvalue
  next =>
    obtain ⟨part, hpart, heq⟩ := List.mem_map.mp hvalue
    cases heq
    exact hcut value hpart .title
  next name hkey =>
    split at hvalue
    next named hnamed =>
      obtain ⟨part, hpart, heq⟩ := List.mem_map.mp hvalue
      cases heq
      exact hcut value hpart field
    next hunknown =>
      cases List.mem_singleton.mp hvalue
      exact ⟨term.raw.toList, rfl, fun _ hc => hc, fun _ => ⟨rfl, ⟨name, hkey, hunknown⟩, rfl⟩⟩

/-- What a query asks of a field is not empty, and taken from one of the terms. -/
theorem exists_term_of_mem_values {query : String} {field : Field} {value : String}
    (hvalue : value ∈ (ofQuery query).values field) :
    value ≠ "" ∧ ∃ term ∈ Term.scan query, IsTakenFrom term field value := by
  obtain ⟨⟨found, value⟩, hentry, rfl⟩ := List.mem_map.mp hvalue
  obtain ⟨hentry, hfield⟩ := List.mem_filter.mp hentry
  obtain ⟨hentry, hnonempty⟩ := List.mem_filter.mp hentry
  obtain ⟨term, hterm, hmem⟩ := List.mem_flatMap.mp hentry
  rw [beq_iff_eq] at hfield
  subst hfield
  exact ⟨by simpa using hnonempty, term, hterm, isTakenFrom_of_mem_ofTerm hterm hmem⟩

/-! ## The normal form -/

/-- The value holds something, has no blanks around it and is in lowercase. -/
structure IsNormal (value : String) : Prop where
  nonempty : value ≠ ""
  opens : ∀ c ∈ value.toList.head?, Text.isBlank c = false
  closes : ∀ c ∈ value.toList.getLast?, Text.isBlank c = false
  folded : Text.fold value = value

theorem isNormal_normal {cs : List Char} (hnonempty : normal cs ≠ "") : IsNormal (normal cs) where
  nonempty := hnonempty
  opens := by
    intro d hd
    rw [normal, String.toList_ofList] at hd
    obtain ⟨c, hc, place, hplace⟩ := Text.Place.exists_of_mem_head?_foldList hd
    exact Text.not_blank_of_mem_foldLetter (Text.not_drop_of_mem_head?_strip hc) hplace
  closes := by
    intro d hd
    rw [normal, String.toList_ofList] at hd
    obtain ⟨c, hc, place, hplace⟩ := Text.Place.exists_of_mem_getLast?_foldList hd
    exact Text.not_blank_of_mem_foldLetter (Text.not_drop_of_mem_getLast?_strip hc) hplace
  folded := by
    rw [normal, Text.fold, String.toList_ofList, Text.foldList_foldList]

/-- Lowercasing makes no percent sign. -/
theorem percent_mem_of_normal {cs : List Char} (hpercent : '%' ∈ (normal cs).toList) : '%' ∈ cs := by
  rw [normal, String.toList_ofList] at hpercent
  exact Text.mem_of_mem_strip (Text.apart_special.mem_of_mem_foldAfter (by decide) hpercent)

/-- Nothing is left of blanks. -/
theorem normal_of_blanks {cs : List Char} (hblanks : ∀ c ∈ cs, Text.isBlank c = true) :
    normal cs = "" := by
  have hstrip : Text.strip Text.isBlank cs = [] := by
    rw [Text.strip, List.dropWhile_eq_nil_iff.mpr hblanks]
    rfl
  rw [normal, hstrip]
  rfl

theorem ofQuery_of_blank {query : String} (hblank : Text.trim query = "") : ofQuery query = empty := by
  rw [Text.trim_eq_empty, Text.blank, List.all_eq_true] at hblank
  have hnone : ∀ entry ∈ (ofQuery query).entries, False := by
    intro entry hentry
    have hvalue : entry.2 ∈ (ofQuery query).values entry.1 :=
      List.mem_map_of_mem (List.mem_filter.mpr ⟨hentry, beq_self_eq_true entry.1⟩)
    obtain ⟨hnonempty, term, hterm, cs, hnormal, hmem, -⟩ := exists_term_of_mem_values hvalue
    refine hnonempty (hnormal.trans (normal_of_blanks fun c hc => ?_))
    exact hblank c (Term.mem_query_of_mem_raw hterm (hmem c hc))
  exact congrArg Criteria.mk (List.eq_nil_iff_forall_not_mem.mpr hnone)

/-- The values that a query asks for are in normal form. A percent sign stands only in
title text that is a whole term with an unknown key. A query of blanks, which the search
page takes for none, asks for nothing. -/
theorem values_ofQuery_are_normal (query : String) :
    (∀ field, ∀ value ∈ (ofQuery query).values field,
      IsNormal value ∧
      ('%' ∈ value.toList → field = .title ∧
        ∃ term ∈ Term.scan query, term.IsUnknown ∧ value = Text.fold (Text.trim term.raw))) ∧
    (Text.trim query = "" → ofQuery query = empty) ∧
    ∀ params : List (String × String), params.lookup "q" = some query →
      (Service.filled? params "q" = none ↔ Text.trim query = "") := by
  refine ⟨?_, ofQuery_of_blank, ?_⟩
  · intro field value hvalue
    obtain ⟨hnonempty, term, hterm, cs, rfl, -, hwhole⟩ := exists_term_of_mem_values hvalue
    refine ⟨isNormal_normal hnonempty, fun hpercent => ?_⟩
    obtain ⟨htitle, hunknown, rfl⟩ := hwhole (percent_mem_of_normal hpercent)
    exact ⟨htitle, term, hterm, hunknown, normal_toList term.raw⟩
  · intro params hlookup
    rw [Service.filled?, hlookup, Text.trim_eq_empty]
    cases hblank : Text.blank query <;> simp [Option.filter, hblank]

/-- A term that is cut at its percent sign, and one that is not because its key is unknown. -/
theorem values_ofQuery_are_normal_uncut :
    (ofQuery "Tag:A%B Rating:50%").values (.facet .tag) = ["a", "b"] ∧
      (ofQuery "Tag:A%B Rating:50%").values .title = ["rating:50%"] ∧
      ∃ term ∈ Term.scan "Tag:A%B Rating:50%",
        term.IsUnknown ∧ "rating:50%" = Text.fold (Text.trim term.raw) := by
  have htitle : (ofQuery "Tag:A%B Rating:50%").values .title = ["rating:50%"] := by
    decide +kernel
  have hvalue : "rating:50%" ∈ (ofQuery "Tag:A%B Rating:50%").values .title := by
    rw [htitle, List.mem_singleton]
  obtain ⟨-, hpercent⟩ :=
    (values_ofQuery_are_normal "Tag:A%B Rating:50%").1 .title "rating:50%" hvalue
  exact ⟨by decide +kernel, htitle, (hpercent (by decide)).2⟩

end Criteria

end ComicCatalog
