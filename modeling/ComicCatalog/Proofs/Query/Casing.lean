import ComicCatalog.Proofs.Query.Segments
import ComicCatalog.Proofs.Text.Casing
import ComicCatalog.Query.Criteria

/-! # The ASCII case of a query

Lowering the ASCII capitals of a query changes nothing of what it asks for. The characters
that cut a query into terms are no letters, field names are compared up to ASCII case, and
values are asked for in lowercase.
-/

namespace ComicCatalog

/-! ## Terms -/

namespace Term

open Text

theorem isWordChar_toLower (c : Char) : isWordChar c.toLower = isWordChar c :=
  eq_toLower_of_capitals (by decide) c

theorem isRunChar_toLower (c : Char) : isRunChar c.toLower = isRunChar c := by
  rw [isRunChar, isRunChar, isAsciiBlank_toLower]

theorem toLower_eq_quote {c : Char} : c.toLower = '"' ↔ c = '"' := by
  have hbeq : (c.toLower == '"') = (c == '"') := toLower_beq (by decide) c
  rwa [Bool.eq_iff_iff, beq_iff_eq, beq_iff_eq] at hbeq

theorem toLower_eq_colon {c : Char} : c.toLower = ':' ↔ c = ':' := by
  have hbeq : (c.toLower == ':') = (c == ':') := toLower_beq (by decide) c
  rwa [Bool.eq_iff_iff, beq_iff_eq, beq_iff_eq] at hbeq

theorem quote_mem_toLower {cs : List Char} : '"' ∈ cs.map Char.toLower ↔ '"' ∈ cs := by
  simp only [List.mem_map, toLower_eq_quote, exists_eq_right]

theorem isQuotation_toLower {cs : List Char} : IsQuotation (cs.map Char.toLower) ↔ IsQuotation cs := by
  constructor
  · rintro ⟨body, hbody, hquote, hsplit⟩
    obtain ⟨first, rest, rfl, hfirst, hrest⟩ := List.map_eq_cons_iff.mp hsplit
    obtain ⟨inner, last, rfl, rfl, hlast⟩ := List.map_eq_append_iff.mp hrest
    obtain ⟨closing, more, rfl, hclosing, hmore⟩ := List.map_eq_cons_iff.mp hlast
    rw [List.map_eq_nil_iff.mp hmore, toLower_eq_quote.mp hfirst, toLower_eq_quote.mp hclosing]
    exact ⟨inner, fun hnil => hbody (by rw [hnil, List.map_nil]), mt quote_mem_toLower.mpr hquote, rfl⟩
  · rintro ⟨body, hbody, hquote, rfl⟩
    refine ⟨body.map Char.toLower, by simpa using hbody, mt quote_mem_toLower.mp hquote, ?_⟩
    have hfixed : '"'.toLower = '"' := by decide
    simp [hfixed]

theorem isKeyedQuotation_toLower {cs : List Char} :
    IsKeyedQuotation (cs.map Char.toLower) ↔ IsKeyedQuotation cs := by
  constructor
  · rintro ⟨word, quotation, hword, hchars, hquotation, hsplit⟩
    obtain ⟨front, behind, rfl, rfl, hbehind⟩ := List.map_eq_append_iff.mp hsplit
    obtain ⟨colon, inner, rfl, hcolon, rfl⟩ := List.map_eq_cons_iff.mp hbehind
    rw [toLower_eq_colon.mp hcolon]
    refine ⟨front, inner, by simpa using hword, ?_, isQuotation_toLower.mp hquotation, rfl⟩
    intro c hc
    rw [← isWordChar_toLower]
    exact hchars _ (List.mem_map_of_mem hc)
  · rintro ⟨word, quotation, hword, hchars, hquotation, rfl⟩
    refine ⟨word.map Char.toLower, quotation.map Char.toLower, by simpa using hword, ?_,
      isQuotation_toLower.mpr hquotation, ?_⟩
    · intro c hc
      obtain ⟨d, hd, rfl⟩ := List.mem_map.mp hc
      rw [isWordChar_toLower]
      exact hchars d hd
    · have hfixed : ':'.toLower = ':' := by decide
      simp [hfixed]

/-- A reader of forms that do not depend on ASCII case reads lowered texts as it reads the
texts themselves. -/
theorem read_toLower {read : List Char → Option (List Char × List Char)} {IsForm : List Char → Prop}
    (hread : ∀ cs found, read cs = some found ↔ IsForm found.1 ∧ cs = found.1 ++ found.2)
    (hform : ∀ front, IsForm (front.map Char.toLower) ↔ IsForm front) (cs : List Char) :
    read (cs.map Char.toLower) =
      (read cs).map fun found => (found.1.map Char.toLower, found.2.map Char.toLower) := by
  cases hcs : read cs with
  | some found =>
      obtain ⟨hfound, hsplit⟩ := (hread cs found).mp hcs
      refine (hread _ (found.1.map Char.toLower, found.2.map Char.toLower)).mpr
        ⟨(hform found.1).mpr hfound, ?_⟩
      rw [hsplit, List.map_append]
  | none =>
      rw [Option.map_none, Option.eq_none_iff_forall_ne_some]
      intro found hfound
      obtain ⟨hlowered, hsplit⟩ := (hread _ found).mp hfound
      obtain ⟨front, rest, rfl, hfront, -⟩ := List.map_eq_append_iff.mp hsplit
      rw [← hfront, hform] at hlowered
      have halone := (hread (front ++ rest) (front, rest)).mpr ⟨hlowered, rfl⟩
      rw [hcs] at halone
      cases halone

/-- The lexeme with its ASCII capitals lowered. -/
def Lexeme.lowered (found : Lexeme) : Lexeme :=
  ⟨found.raw.map Char.toLower, found.bare⟩

theorem lexeme_toLower (c : Char) (rest : List Char) :
    lexeme c.toLower (rest.map Char.toLower) =
      ((lexeme c rest).1.lowered, (lexeme c rest).2.map Char.toLower) := by
  have hkeyed := read_toLower (fun _ _ => keyedQuotation?_eq_some)
    (fun _ => isKeyedQuotation_toLower) (c :: rest)
  have hbare := read_toLower (fun _ _ => bareQuotation?_eq_some)
    (fun _ => isQuotation_toLower) (c :: rest)
  rw [List.map_cons] at hkeyed hbare
  unfold lexeme
  rw [hkeyed, hbare]
  cases keyedQuotation? (c :: rest) with
  | some found => rfl
  | none =>
      cases bareQuotation? (c :: rest) with
      | some found => rfl
      | none =>
          simp only [Option.map_none, takeWhile_toLower isRunChar_toLower,
            dropWhile_toLower isRunChar_toLower]
          rfl

/-- A lowered query has the lowered terms. -/
theorem lexemes_toLower (cs : List Char) :
    lexemes (cs.map Char.toLower) = (lexemes cs).map Lexeme.lowered := by
  fun_induction lexemes cs with
  | case1 cs hnil =>
      have hblanks : ∀ c ∈ cs.map Char.toLower, isAsciiBlank c = true := by
        intro c hc
        obtain ⟨d, hd, rfl⟩ := List.mem_map.mp hc
        rw [isAsciiBlank_toLower]
        exact List.dropWhile_eq_nil_iff.mp hnil d hd
      have hnone := lexemes_blanks_append hblanks []
      rwa [List.append_nil, lexemes_nil] at hnone
  | case2 cs c rest hcons ih =>
      have hblank : isAsciiBlank c.toLower = false := by
        have hhead := List.head?_dropWhile_not isAsciiBlank cs
        rw [hcons] at hhead
        rw [isAsciiBlank_toLower]
        simpa using hhead
      have hsplit : cs.map Char.toLower =
          (cs.map Char.toLower).takeWhile isAsciiBlank ++ c.toLower :: rest.map Char.toLower := by
        rw [← List.map_cons, ← hcons, ← dropWhile_toLower isAsciiBlank_toLower,
          List.takeWhile_append_dropWhile]
      rw [hsplit, lexemes_blanks_append (fun d hd => List.mem_takeWhile_imp hd),
        lexemes_cons_of_not_blank _ hblank, lexeme_toLower, ih, List.map_cons]

end Term

/-! ## What is asked for -/

namespace Field

theorem named?_asciiFold (name : String) : named? (Text.asciiFold name) = named? name := by
  rw [named?, named?, Text.asciiFold_asciiFold]

end Field

namespace Criteria

open Text

theorem normal_toLower (value : List Char) : normal (value.map Char.toLower) = normal value := by
  rw [normal, normal, strip_toLower isBlank_toLower, foldList_toLower]

theorem parts_toLower (value : List Char) :
    parts (String.ofList (value.map Char.toLower)) = parts (String.ofList value) := by
  have hstrip : strip (· == '"') (value.map Char.toLower) =
      (strip (· == '"') value).map Char.toLower :=
    strip_toLower (toLower_beq (by decide)) value
  have hsplit : ((strip (· == '"') value).map Char.toLower).splitOn '%' =
      ((strip (· == '"') value).splitOn '%').map (List.map Char.toLower) :=
    splitOnP_toLower (toLower_beq (by decide)) _
  rw [parts, parts, String.toList_ofList, String.toList_ofList, hstrip, hsplit, List.map_map]
  exact List.map_congr_left fun part _ => normal_toLower part

/-- A lowered term asks for what the term itself asks for. -/
theorem ofTerm_lowered (found : Term.Lexeme) :
    ofTerm (Term.ofLexeme found.lowered) = ofTerm (Term.ofLexeme found) := by
  have hcolon : ∀ c : Char, (c.toLower != ':') = (c != ':') := by
    intro c
    have hbeq : (c.toLower == ':') = (c == ':') := toLower_beq (by decide) c
    rw [bne, bne, hbeq]
  have htake : (found.raw.map Char.toLower).takeWhile (· != ':') =
      (found.raw.takeWhile (· != ':')).map Char.toLower := takeWhile_toLower hcolon found.raw
  have hdrop : (found.raw.map Char.toLower).dropWhile (· != ':') =
      (found.raw.dropWhile (· != ':')).map Char.toLower := dropWhile_toLower hcolon found.raw
  unfold Term.ofLexeme
  simp only [Term.Lexeme.lowered, htake, hdrop]
  cases found.bare with
  | true => simp only [if_true, ofTerm, parts_toLower]
  | false =>
      simp only [Bool.false_eq_true, if_false]
      cases found.raw.dropWhile (· != ':') with
      | nil => simp only [List.map_nil, ofTerm, parts_toLower]
      | cons colon value =>
          have hnamed := Field.named?_asciiFold (String.ofList (found.raw.takeWhile (· != ':')))
          rw [asciiFold, String.toList_ofList] at hnamed
          simp only [List.map_cons, ofTerm, hnamed, parts_toLower, String.toList_ofList,
            normal_toLower]

/-- A query asks for the same in any ASCII case. -/
theorem ofQuery_asciiFold (query : String) : ofQuery (asciiFold query) = ofQuery query := by
  have hterms : ∀ found : List Term.Lexeme,
      ((found.map Term.Lexeme.lowered).map Term.ofLexeme).flatMap ofTerm =
        (found.map Term.ofLexeme).flatMap ofTerm := by
    intro found
    simp only [List.map_map, List.flatMap_map, Function.comp_def, ofTerm_lowered]
  rw [ofQuery, ofQuery, ofTerms, ofTerms, Term.scan, Term.scan, asciiFold, String.toList_ofList,
    Term.lexemes_toLower, hterms]

/-- Queries that differ in nothing but the ASCII case of their letters ask for the same
values of the same fields, in the same order. -/
theorem ofQuery_eq_of_case_variants {query other : String}
    (hvariants : List.Forall₂ CaseVariant query.toList other.toList) :
    ofQuery query = ofQuery other := by
  rw [← ofQuery_asciiFold query, ← ofQuery_asciiFold other, asciiFold_eq_of_variants hvariants]

/-- A field name, an unknown name and a quotation in mixed case, with a capital sigma that
stands at the end of its word. -/
theorem ofQuery_eq_of_case_variants_sigma :
    ofQuery "TaG:\"ΟΔΟΣ Bc\" fOO:ΑΣb" = ofQuery "tAG:\"ΟΔΟΣ bC\" Foo:ΑΣB" := by
  have hpairs : ∀ pair ∈ "TaG:\"ΟΔΟΣ Bc\" fOO:ΑΣb".toList.zip "tAG:\"ΟΔΟΣ bC\" Foo:ΑΣB".toList,
      CaseVariant pair.1 pair.2 := by
    decide
  exact ofQuery_eq_of_case_variants (List.forall₂_iff_zip.mpr ⟨by decide, fun hpair => hpairs _ hpair⟩)

end Criteria

end ComicCatalog
