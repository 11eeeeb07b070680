import ComicCatalog.Proofs.Text.Runs
import ComicCatalog.Query.Term
import Mathlib

/-! # Reading terms one after the other

How a query text falls into terms at its front. A keyed quotation is read up to
its closing quote whatever follows it, and a text without quotes is read run by
run.
-/

namespace ComicCatalog.Term

theorem lexemes_nil : lexemes [] = [] := by
  rw [lexemes]
  rfl

theorem lexemes_cons_of_blank {c : Char} (cs : List Char) (hblank : Text.isAsciiBlank c = true) :
    lexemes (c :: cs) = lexemes cs := by
  have hdrop : (c :: cs).dropWhile Text.isAsciiBlank = cs.dropWhile Text.isAsciiBlank := by
    simp [hblank]
  rw [lexemes, lexemes]
  split
  next hnil =>
    rw [hdrop] at hnil
    split
    next => rfl
    next hcons => simp [hnil] at hcons
  next first rest hcons =>
    rw [hdrop] at hcons
    split
    next hnil => simp [hcons] at hnil
    next hcons' =>
      rw [hcons] at hcons'
      cases hcons'
      rfl

theorem lexemes_cons_of_not_blank {c : Char} (cs : List Char)
    (hblank : Text.isAsciiBlank c = false) :
    lexemes (c :: cs) = (lexeme c cs).1 :: lexemes (lexeme c cs).2 := by
  rw [lexemes]
  split
  next hnil => simp [hblank] at hnil
  next hcons =>
    simp only [List.dropWhile_cons, hblank] at hcons
    cases hcons
    rfl

theorem not_blank_of_isWordChar {c : Char} (hword : isWordChar c = true) :
    Text.isAsciiBlank c = false := by
  have hcode : (((65 ≤ c.toNat ∧ c.toNat ≤ 90) ∨ (97 ≤ c.toNat ∧ c.toNat ≤ 122)) ∨
      (48 ≤ c.toNat ∧ c.toNat ≤ 57)) ∨ c = '_' := by
    simp only [isWordChar, Char.isAlphanum, Char.isAlpha, Char.isUpper, Char.isLower,
      Char.isDigit, Bool.or_eq_true, Bool.and_eq_true, decide_eq_true_eq,
      UInt32.le_iff_toNat_le, ge_iff_le] at hword
    exact hword
  simp only [Text.isAsciiBlank, Bool.or_eq_false_iff, Bool.and_eq_false_iff,
    decide_eq_false_iff_not, beq_eq_false_iff_ne]
  rcases hcode with ((hupper | hlower) | hdigit) | rfl
  · omega
  · omega
  · omega
  · decide

/-! ## Quotations -/

/-- A quotation ends at its first quote, whatever comes behind it. -/
theorem quotation?_append {body : List Char} (hbody : body ≠ []) (hquote : '"' ∉ body)
    (rest : List Char) : quotation? (body ++ '"' :: rest) = some (body ++ ['"'], rest) := by
  have hall : ∀ c ∈ body, (c != '"') = true := by
    intro c hc
    simpa using fun heq : c = '"' => hquote (heq ▸ hc)
  obtain ⟨first, others, rfl⟩ := List.exists_cons_of_ne_nil hbody
  have htake : ((first :: others) ++ '"' :: rest).takeWhile (· != '"') = first :: others := by
    rw [List.takeWhile_append_of_pos hall]
    simp
  have hdrop : ((first :: others) ++ '"' :: rest).dropWhile (· != '"') = '"' :: rest := by
    rw [List.dropWhile_append_of_pos hall]
    simp
  unfold quotation?
  rw [htake, hdrop]
  rfl

/-- A word, a colon and a quotation are read as one term up to the closing quote. -/
theorem keyedQuotation?_append {word body : List Char} (hword : word ≠ [])
    (hwordChars : ∀ c ∈ word, isWordChar c = true) (hbody : body ≠ []) (hquote : '"' ∉ body)
    (rest : List Char) :
    keyedQuotation? (word ++ ':' :: '"' :: (body ++ '"' :: rest)) =
      some (word ++ ':' :: '"' :: (body ++ ['"']), rest) := by
  have hcolon : isWordChar ':' = false := by decide
  obtain ⟨first, others, rfl⟩ := List.exists_cons_of_ne_nil hword
  have htake : ((first :: others) ++ ':' :: '"' :: (body ++ '"' :: rest)).takeWhile isWordChar =
      first :: others := by
    rw [List.takeWhile_append_of_pos hwordChars]
    simp [hcolon]
  have hdrop : ((first :: others) ++ ':' :: '"' :: (body ++ '"' :: rest)).dropWhile isWordChar =
      ':' :: '"' :: (body ++ '"' :: rest) := by
    rw [List.dropWhile_append_of_pos hwordChars]
    simp [hcolon]
  unfold keyedQuotation?
  rw [htake, hdrop]
  simp [quotation?_append hbody hquote]

/-- A query that starts with a keyed quotation has it as its first term. -/
theorem lexemes_keyedQuotation {word body : List Char} (hword : word ≠ [])
    (hwordChars : ∀ c ∈ word, isWordChar c = true) (hbody : body ≠ []) (hquote : '"' ∉ body)
    (rest : List Char) :
    lexemes (word ++ ':' :: '"' :: (body ++ '"' :: rest)) =
      ⟨word ++ ':' :: '"' :: (body ++ ['"']), false⟩ :: lexemes rest := by
  have hkeyed := keyedQuotation?_append hword hwordChars hbody hquote rest
  obtain ⟨first, others, rfl⟩ := List.exists_cons_of_ne_nil hword
  have hblank : Text.isAsciiBlank first = false :=
    not_blank_of_isWordChar (hwordChars first List.mem_cons_self)
  rw [List.cons_append] at hkeyed ⊢
  rw [lexemes_cons_of_not_blank _ hblank]
  unfold lexeme
  rw [hkeyed]

/-! ## Runs -/

/-- Without quotes before the next blank there is no keyed quotation. -/
theorem keyedQuotation?_of_unquoted {left tail : List Char} (hquote : '"' ∉ left)
    (htail : ∀ d ∈ tail.head?, Text.isAsciiBlank d = true) :
    keyedQuotation? (left ++ tail) = none := by
  have hstop : ∀ d ∈ tail.head?, isWordChar d = false := by
    intro d hd
    by_contra hword
    have hblank := not_blank_of_isWordChar (by simpa using hword)
    rw [htail d hd] at hblank
    cases hblank
  have hnoQuote : '"' ∉ left.dropWhile isWordChar := fun hmem =>
    hquote ((List.dropWhile_suffix isWordChar).subset hmem)
  unfold keyedQuotation?
  rw [Text.dropWhile_append_of_stop hstop]
  split
  next hdrop =>
    exfalso
    match hleft : left.dropWhile isWordChar with
    | [] =>
        rw [hleft, List.nil_append] at hdrop
        simpa [Text.isAsciiBlank] using htail ':' (by simp [hdrop])
    | [_] =>
        rw [hleft] at hdrop
        simp only [List.cons_append, List.nil_append, List.cons.injEq] at hdrop
        simpa [Text.isAsciiBlank] using htail '"' (by simp [hdrop.2])
    | _ :: second :: _ =>
        rw [hleft] at hdrop hnoQuote
        simp only [List.cons_append, List.cons.injEq] at hdrop
        exact hnoQuote (by simp [hdrop.2.1])
  next => rfl

/-- Without quotes before the next blank a term is a run. -/
theorem lexeme_of_unquoted {c : Char} {left tail : List Char} (hquote : '"' ∉ c :: left)
    (htail : ∀ d ∈ tail.head?, Text.isAsciiBlank d = true) :
    lexeme c (left ++ tail) =
      (⟨c :: left.takeWhile isRunChar, false⟩, left.dropWhile isRunChar ++ tail) := by
  have hkeyed : keyedQuotation? (c :: (left ++ tail)) = none :=
    (keyedQuotation?_of_unquoted hquote htail :)
  have hbare : bareQuotation? (c :: (left ++ tail)) = none := by
    unfold bareQuotation?
    split
    next hcons =>
      cases hcons
      exact absurd List.mem_cons_self hquote
    next => rfl
  have hstop : ∀ d ∈ tail.head?, isRunChar d = false := by
    intro d hd
    simp [isRunChar, htail d hd]
  unfold lexeme
  rw [hkeyed, hbare]
  simp only [Text.takeWhile_append_of_stop hstop, Text.dropWhile_append_of_stop hstop]

/-- A query without quotes starts with a run. -/
theorem lexeme_of_unquoted_alone {c : Char} {left : List Char} (hquote : '"' ∉ c :: left) :
    lexeme c left = (⟨c :: left.takeWhile isRunChar, false⟩, left.dropWhile isRunChar) := by
  have hread : lexeme c (left ++ []) =
      (⟨c :: left.takeWhile isRunChar, false⟩, left.dropWhile isRunChar ++ []) :=
    lexeme_of_unquoted hquote (by simp)
  rwa [List.append_nil, List.append_nil] at hread

end ComicCatalog.Term
