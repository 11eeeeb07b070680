import ComicCatalog.Proofs.Query.Terms

/-! # How a query falls into terms

The terms of a query are cut out of its text one after the other, and only blanks are left
between them. Where a term ends is decided where it starts: at the closing quote if a
quotation starts there, with or without a word and a colon before it, and at the next blank
otherwise. No other cutting of the text obeys these rules.
-/

namespace ComicCatalog.Term

/-- Quotes around some text without quotes. -/
def IsQuotation (cs : List Char) : Prop :=
  ∃ body, body ≠ [] ∧ '"' ∉ body ∧ cs = '"' :: (body ++ ['"'])

/-- A word, a colon and a quotation. -/
def IsKeyedQuotation (cs : List Char) : Prop :=
  ∃ word quotation, word ≠ [] ∧ (∀ c ∈ word, isWordChar c = true) ∧ IsQuotation quotation ∧
    cs = word ++ ':' :: quotation

/-- The term ends where it has to, given the text behind it. -/
inductive Ends (raw rest : List Char) : Prop
  | keyedQuotation (hkeyed : IsKeyedQuotation raw)
  | quotation (hquotation : IsQuotation raw)
  | run (hrun : ∀ c ∈ raw, isRunChar c = true) (hstop : ∀ c ∈ rest.head?, isRunChar c = false)
      (hkeyed : ∀ front, front <+: raw ++ rest → ¬ IsKeyedQuotation front)
      (hquotation : ∀ front, front <+: raw ++ rest → ¬ IsQuotation front)

/-- The text falls into the terms: each starts at the first character behind the term before
it that is no blank, and ends where it has to. -/
inductive Segmented : List Char → List (List Char) → Prop
  | blanks {cs : List Char} (hblanks : ∀ c ∈ cs, Text.isAsciiBlank c = true) : Segmented cs []
  | term {blanks tail rest : List Char} {first : Char} {others : List (List Char)}
      (hblanks : ∀ c ∈ blanks, Text.isAsciiBlank c = true)
      (hfirst : Text.isAsciiBlank first = false) (hends : Ends (first :: tail) rest)
      (hrest : Segmented rest others) :
      Segmented (blanks ++ (first :: tail) ++ rest) ((first :: tail) :: others)

/-! ## Quotations at the front of a text -/

theorem exists_body_of_quotation? {cs : List Char} {found : List Char × List Char}
    (hfound : quotation? cs = some found) :
    ∃ body, body ≠ [] ∧ '"' ∉ body ∧ found.1 = body ++ ['"'] ∧ cs = body ++ '"' :: found.2 := by
  unfold quotation? at hfound
  split at hfound
  next first body rest htake hdrop =>
    cases hfound
    refine ⟨first :: body, List.cons_ne_nil _ _, ?_, rfl, ?_⟩
    · intro hquote
      rw [← htake] at hquote
      simpa using List.mem_takeWhile_imp hquote
    · have hsplit := List.takeWhile_append_dropWhile (p := (· != '"')) (l := cs)
      rw [htake, hdrop] at hsplit
      exact hsplit.symm
  next => cases hfound

theorem bareQuotation?_eq_some {cs : List Char} {found : List Char × List Char} :
    bareQuotation? cs = some found ↔ IsQuotation found.1 ∧ cs = found.1 ++ found.2 := by
  constructor
  · intro hfound
    unfold bareQuotation? at hfound
    split at hfound
    next rest =>
      obtain ⟨inner, hinner, rfl⟩ := Option.map_eq_some_iff.mp hfound
      obtain ⟨body, hbody, hquote, hclosed, rfl⟩ := exists_body_of_quotation? hinner
      exact ⟨⟨body, hbody, hquote, by rw [hclosed]⟩, by simp [hclosed]⟩
    next => cases hfound
  · obtain ⟨raw, rest⟩ := found
    rintro ⟨⟨body, hbody, hquote, rfl⟩, rfl⟩
    simp [bareQuotation?, quotation?_append hbody hquote rest]

theorem keyedQuotation?_eq_some {cs : List Char} {found : List Char × List Char} :
    keyedQuotation? cs = some found ↔ IsKeyedQuotation found.1 ∧ cs = found.1 ++ found.2 := by
  constructor
  · intro hfound
    unfold keyedQuotation? at hfound
    split at hfound
    next first word rest htake hdrop =>
      obtain ⟨inner, hinner, rfl⟩ := Option.map_eq_some_iff.mp hfound
      obtain ⟨body, hbody, hquote, hclosed, rfl⟩ := exists_body_of_quotation? hinner
      have hsplit := List.takeWhile_append_dropWhile (p := isWordChar) (l := cs)
      rw [htake, hdrop] at hsplit
      refine ⟨⟨first :: word, '"' :: (body ++ ['"']), List.cons_ne_nil _ _, ?_,
        ⟨body, hbody, hquote, rfl⟩, by rw [hclosed]⟩, ?_⟩
      · intro c hc
        rw [← htake] at hc
        exact List.mem_takeWhile_imp hc
      · rw [← hsplit]
        simp [hclosed]
    next => cases hfound
  · obtain ⟨raw, rest⟩ := found
    rintro ⟨⟨word, quotation, hword, hchars, ⟨body, hbody, hquote, rfl⟩, rfl⟩, rfl⟩
    have hfront := keyedQuotation?_append hword hchars hbody hquote rest
    simpa using hfront

theorem bareQuotation?_eq_none {cs : List Char} :
    bareQuotation? cs = none ↔ ∀ front, front <+: cs → ¬ IsQuotation front := by
  rw [Option.eq_none_iff_forall_ne_some]
  constructor
  · rintro hnone front ⟨rest, rfl⟩ hfront
    exact hnone (front, rest) (bareQuotation?_eq_some.mpr ⟨hfront, rfl⟩)
  · intro hnone found hfound
    obtain ⟨hfront, hsplit⟩ := bareQuotation?_eq_some.mp hfound
    exact hnone found.1 ⟨found.2, hsplit.symm⟩ hfront

theorem keyedQuotation?_eq_none {cs : List Char} :
    keyedQuotation? cs = none ↔ ∀ front, front <+: cs → ¬ IsKeyedQuotation front := by
  rw [Option.eq_none_iff_forall_ne_some]
  constructor
  · rintro hnone front ⟨rest, rfl⟩ hfront
    exact hnone (front, rest) (keyedQuotation?_eq_some.mpr ⟨hfront, rfl⟩)
  · intro hnone found hfound
    obtain ⟨hfront, hsplit⟩ := keyedQuotation?_eq_some.mp hfound
    exact hnone found.1 ⟨found.2, hsplit.symm⟩ hfront

theorem IsQuotation.ne_nil {cs : List Char} (hcs : IsQuotation cs) : cs ≠ [] := by
  obtain ⟨body, -, -, rfl⟩ := hcs
  exact List.cons_ne_nil _ _

theorem IsKeyedQuotation.ne_nil {cs : List Char} (hcs : IsKeyedQuotation cs) : cs ≠ [] := by
  obtain ⟨word, quotation, -, -, -, rfl⟩ := hcs
  simp

/-- A text that starts with a quotation starts with no word. -/
theorem IsQuotation.not_keyed {cs front rest : List Char} (hcs : IsQuotation cs)
    (hfront : front <+: cs ++ rest) : ¬ IsKeyedQuotation front := by
  rintro ⟨word, quotation, hword, hchars, -, rfl⟩
  obtain ⟨body, -, -, rfl⟩ := hcs
  obtain ⟨first, others, rfl⟩ := List.exists_cons_of_ne_nil hword
  obtain ⟨behind, hsplit⟩ := hfront
  simp only [List.cons_append, List.cons.injEq] at hsplit
  have hfirst := hchars first List.mem_cons_self
  rw [hsplit.1] at hfirst
  exact absurd hfirst (by decide)

/-- What a text that starts with `c` starts with starts with `c` itself. -/
theorem exists_tail {c : Char} {cs raw rest : List Char} (hraw : raw ≠ [])
    (hsplit : c :: cs = raw ++ rest) : ∃ tail, raw = c :: tail ∧ cs = tail ++ rest :=
  (List.cons_eq_append_iff.mp hsplit).resolve_left fun hnil => hraw hnil.1

/-! ## The term at the front -/

/-- What is read as a term is all of the text up to where the term has to end. -/
theorem lexeme_ends {c : Char} (hblank : Text.isAsciiBlank c = false) (rest : List Char) :
    ∃ tail, (lexeme c rest).1.raw = c :: tail ∧ rest = tail ++ (lexeme c rest).2 ∧
      Ends (c :: tail) (lexeme c rest).2 ∧
      ((lexeme c rest).1.bare = true → IsQuotation (c :: tail)) := by
  unfold lexeme
  cases hkeyed : keyedQuotation? (c :: rest) with
  | some found =>
      obtain ⟨hfront, hsplit⟩ := keyedQuotation?_eq_some.mp hkeyed
      obtain ⟨tail, hraw, hrest⟩ := exists_tail hfront.ne_nil hsplit
      exact ⟨tail, hraw, hrest, .keyedQuotation (hraw ▸ hfront), by simp⟩
  | none =>
      cases hbare : bareQuotation? (c :: rest) with
      | some found =>
          obtain ⟨hfront, hsplit⟩ := bareQuotation?_eq_some.mp hbare
          obtain ⟨tail, hraw, hrest⟩ := exists_tail hfront.ne_nil hsplit
          exact ⟨tail, hraw, hrest, .quotation (hraw ▸ hfront), fun _ => hraw ▸ hfront⟩
      | none =>
          -- No quotation starts here, so the term runs on to the next blank.
          have hsplit := List.takeWhile_append_dropWhile (p := isRunChar) (l := rest)
          refine ⟨rest.takeWhile isRunChar, rfl, hsplit.symm, .run ?_ ?_ ?_ ?_, by simp⟩
          · intro d hd
            rcases List.mem_cons.mp hd with rfl | hd
            · simp [isRunChar, hblank]
            · exact List.mem_takeWhile_imp hd
          · intro d hd
            have hstop := List.head?_dropWhile_not isRunChar rest
            rw [Option.mem_def.mp hd] at hstop
            simpa using hstop
          · rw [List.cons_append, hsplit]
            exact keyedQuotation?_eq_none.mp hkeyed
          · rw [List.cons_append, hsplit]
            exact bareQuotation?_eq_none.mp hbare

/-- A term that ends where it has to is the one that is read. -/
theorem lexeme_of_ends {c : Char} {tail rest : List Char} (hends : Ends (c :: tail) rest) :
    (lexeme c (tail ++ rest)).1.raw = c :: tail ∧ (lexeme c (tail ++ rest)).2 = rest := by
  unfold lexeme
  cases hends with
  | keyedQuotation hkeyed =>
      have hfound : keyedQuotation? (c :: (tail ++ rest)) = some (c :: tail, rest) :=
        keyedQuotation?_eq_some.mpr ⟨hkeyed, rfl⟩
      rw [hfound]
      exact ⟨rfl, rfl⟩
  | quotation hquotation =>
      have hfound : bareQuotation? (c :: (tail ++ rest)) = some (c :: tail, rest) :=
        bareQuotation?_eq_some.mpr ⟨hquotation, rfl⟩
      have hnone : keyedQuotation? (c :: (tail ++ rest)) = none :=
        keyedQuotation?_eq_none.mpr fun _ => hquotation.not_keyed
      rw [hnone, hfound]
      exact ⟨rfl, rfl⟩
  | run hrun hstop hkeyed hquotation =>
      have htail : ∀ d ∈ tail, isRunChar d = true := fun d hd => hrun d (List.mem_cons_of_mem c hd)
      have hnoKeyed : keyedQuotation? (c :: (tail ++ rest)) = none :=
        keyedQuotation?_eq_none.mpr hkeyed
      have hnoBare : bareQuotation? (c :: (tail ++ rest)) = none :=
        bareQuotation?_eq_none.mpr hquotation
      rw [hnoKeyed, hnoBare]
      simp only [Text.takeWhile_run htail hstop, Text.dropWhile_run htail hstop, and_self]

/-! ## All terms -/

theorem segmented_lexemes (cs : List Char) : Segmented cs ((lexemes cs).map Lexeme.raw) := by
  fun_induction lexemes cs with
  | case1 cs hnil =>
      apply Segmented.blanks
      intro c hc
      have hdrop := List.dropWhile_eq_nil_iff.mp hnil
      exact hdrop c hc
  | case2 cs c rest hcons ih =>
      have hblank : Text.isAsciiBlank c = false := by
        have hhead := List.head?_dropWhile_not Text.isAsciiBlank cs
        rw [hcons] at hhead
        simpa using hhead
      obtain ⟨tail, hraw, hsplit, hends, -⟩ := lexeme_ends hblank rest
      have hcs : cs = cs.takeWhile Text.isAsciiBlank ++ (c :: tail) ++ (lexeme c rest).2 := by
        have hwhole := List.takeWhile_append_dropWhile (p := Text.isAsciiBlank) (l := cs)
        rw [hcons] at hwhole
        rw [List.append_assoc, List.cons_append, ← hsplit, hwhole]
      rw [List.map_cons, hraw]
      generalize hblanks : cs.takeWhile Text.isAsciiBlank = blanks at hcs
      rw [hcs]
      refine .term ?_ hblank hends ih
      intro d hd
      rw [← hblanks] at hd
      exact List.mem_takeWhile_imp hd

theorem lexemes_blanks_append {blanks : List Char}
    (hblanks : ∀ c ∈ blanks, Text.isAsciiBlank c = true) (rest : List Char) :
    lexemes (blanks ++ rest) = lexemes rest := by
  induction blanks with
  | nil => rfl
  | cons c others ih =>
      rw [List.cons_append, lexemes_cons_of_blank _ (hblanks c List.mem_cons_self)]
      exact ih fun d hd => hblanks d (List.mem_cons_of_mem c hd)

theorem Segmented.eq_lexemes {cs : List Char} {raws : List (List Char)}
    (hsegmented : Segmented cs raws) : raws = (lexemes cs).map Lexeme.raw := by
  induction hsegmented with
  | @blanks cs hblanks =>
      have hnone := lexemes_blanks_append hblanks []
      rw [List.append_nil, lexemes_nil] at hnone
      rw [hnone, List.map_nil]
  | @term blanks tail rest first others hblanks hfirst hends hrest ih =>
      obtain ⟨hraw, hbehind⟩ := lexeme_of_ends hends
      rw [List.append_assoc, lexemes_blanks_append hblanks, List.cons_append,
        lexemes_cons_of_not_blank _ hfirst, List.map_cons, hraw, hbehind, ← ih]

/-- Nothing but blanks is left out, and nothing stands in two terms. -/
theorem Segmented.filter_flatten {cs : List Char} {raws : List (List Char)}
    (hsegmented : Segmented cs raws) : raws.flatten.filter isRunChar = cs.filter isRunChar := by
  have hnone : ∀ blanks : List Char, (∀ c ∈ blanks, Text.isAsciiBlank c = true) →
      blanks.filter isRunChar = [] := by
    intro blanks hblanks
    rw [List.filter_eq_nil_iff]
    intro c hc
    simp [isRunChar, hblanks c hc]
  induction hsegmented with
  | blanks hblanks => rw [hnone _ hblanks, List.flatten_nil, List.filter_nil]
  | term hblanks hfirst hends hrest ih =>
      rw [List.flatten_cons, List.filter_append, List.filter_append, List.filter_append,
        hnone _ hblanks, ih, List.nil_append]

theorem isQuotation_of_bare {cs : List Char} {found : Lexeme} (hfound : found ∈ lexemes cs)
    (hbare : found.bare = true) : IsQuotation found.raw := by
  fun_induction lexemes cs with
  | case1 cs hnil => cases hfound
  | case2 cs c rest hcons ih =>
      have hblank : Text.isAsciiBlank c = false := by
        have hhead := List.head?_dropWhile_not Text.isAsciiBlank cs
        rw [hcons] at hhead
        simpa using hhead
      rcases List.mem_cons.mp hfound with rfl | hfound
      · obtain ⟨tail, hraw, -, -, hquotation⟩ := lexeme_ends hblank rest
        rw [hraw]
        exact hquotation hbare
      · exact ih hfound

/-! ## Keys and values -/

theorem toList_raw_ofLexeme (found : Lexeme) : (ofLexeme found).raw.toList = found.raw := by
  unfold ofLexeme
  dsimp only
  split
  · exact String.toList_ofList
  · split <;> exact String.toList_ofList

/-- A key stands before the first colon, and a term without one has no colon or is a bare
quotation. -/
theorem ofLexeme_cases (found : Lexeme) :
    (∃ key, (ofLexeme found).key = some key ∧
      (ofLexeme found).raw = key ++ ":" ++ (ofLexeme found).value ∧ ':' ∉ key.toList) ∨
    ((ofLexeme found).key = none ∧ (ofLexeme found).value = (ofLexeme found).raw ∧
      (':' ∉ found.raw ∨ found.bare = true)) := by
  unfold ofLexeme
  dsimp only
  split
  next hbare => exact Or.inr ⟨rfl, rfl, Or.inr hbare⟩
  next =>
    have hsplit := List.takeWhile_append_dropWhile (p := (· != ':')) (l := found.raw)
    split
    next hnil =>
      refine Or.inr ⟨rfl, rfl, Or.inl fun hcolon => ?_⟩
      have hdropped := List.dropWhile_eq_nil_iff.mp hnil ':' hcolon
      simp at hdropped
    next colon value hcons =>
      have hcolon : colon = ':' := by
        have hhead := List.head?_dropWhile_not (· != ':') found.raw
        rw [hcons] at hhead
        simpa using hhead
      rw [hcons, hcolon] at hsplit
      refine Or.inl ⟨_, rfl, ?_, ?_⟩
      · apply String.toList_injective
        simp only [String.toList_append, String.toList_ofList, List.append_assoc]
        exact hsplit.symm
      · intro hmem
        rw [String.toList_ofList] at hmem
        simpa using List.mem_takeWhile_imp hmem

/-- The terms of a query are exactly the segments that its text falls into, so every
character but the blanks stands in one term. What has a key is split at its first colon. -/
theorem scan_eq_segments (query : String) :
    (∀ raws, Segmented query.toList raws ↔ raws = (scan query).map fun term => term.raw.toList) ∧
    (((scan query).flatMap fun term => term.raw.toList).filter isRunChar =
      query.toList.filter isRunChar) ∧
    ∀ term ∈ scan query,
      (∃ key, term.key = some key ∧ term.raw = key ++ ":" ++ term.value ∧ ':' ∉ key.toList) ∨
      (term.key = none ∧ term.value = term.raw ∧
        (':' ∉ term.raw.toList ∨ IsQuotation term.raw.toList)) := by
  have hraws : ((scan query).map fun term => term.raw.toList) =
      (lexemes query.toList).map Lexeme.raw := by
    rw [scan, List.map_map]
    apply List.map_congr_left
    intro found hfound
    exact toList_raw_ofLexeme found
  refine ⟨?_, ?_, ?_⟩
  · intro raws
    rw [hraws]
    constructor
    · exact Segmented.eq_lexemes
    · rintro rfl
      exact segmented_lexemes query.toList
  · rw [List.flatMap_def, hraws]
    exact (segmented_lexemes query.toList).filter_flatten
  · intro term hterm
    obtain ⟨found, hfound, rfl⟩ := List.mem_map.mp hterm
    rw [toList_raw_ofLexeme]
    rcases ofLexeme_cases found with hkeyed | ⟨hnone, hvalue, hcolon | hbare⟩
    · exact Or.inl hkeyed
    · exact Or.inr ⟨hnone, hvalue, Or.inl hcolon⟩
    · exact Or.inr ⟨hnone, hvalue, Or.inr (isQuotation_of_bare hfound hbare)⟩

end ComicCatalog.Term
