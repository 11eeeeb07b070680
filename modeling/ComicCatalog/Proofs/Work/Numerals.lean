import ComicCatalog.Proofs.Number.ReadBack
import ComicCatalog.Proofs.Text.Runs
import ComicCatalog.Work.Ident

/-! # Numerals

What is read as a whole number: its digits, with zeros in front of them, behind a sign that fits
or none. A numeral is one of one number only, however long it is, and is read as that number if 64
bits hold it.
-/

namespace ComicCatalog.Ident

/-- The sign may stand before the digits of the number. Zero takes either. -/
def IsSignOf (sign : List Char) (n : Int) : Prop :=
  sign = [] ∧ 0 ≤ n ∨ sign = ['+'] ∧ 0 ≤ n ∨ sign = ['-'] ∧ n ≤ 0

/-- A sign or none, any number of zeros, and the digits of the number. -/
def IsNumeral (cs : List Char) (n : Int) : Prop :=
  ∃ sign zeros, cs = sign ++ (List.replicate zeros '0' ++ Nat.toDigits 10 n.natAbs) ∧ IsSignOf sign n

/-- A numeral of the number with blanks around it. -/
def IsSpelling (text : String) (n : Int) : Prop :=
  ∃ before numeral after, text.toList = before ++ numeral ++ after ∧
    (∀ c ∈ before, Text.isBlank c = true) ∧ (∀ c ∈ after, Text.isBlank c = true) ∧
    IsNumeral numeral n

/-! ## Digits -/

theorem digits?_eq (cs : List Char) :
    digits? cs = if cs.isEmpty || !cs.all Char.isDigit then none else some (Text.digitsValue cs) := by
  rw [digits?, Text.digitsValue, Text.ofDigits, List.foldl_map]

theorem digits?_eq_some_iff {cs : List Char} {n : Nat} :
    digits? cs = some n ↔ ∃ zeros, cs = List.replicate zeros '0' ++ Nat.toDigits 10 n := by
  rw [digits?_eq]
  constructor
  · intro hread
    split at hread
    next => cases hread
    next hcs =>
      cases hread
      rw [Bool.or_eq_true, not_or, List.isEmpty_iff, Bool.not_eq_true', Bool.not_eq_false,
        List.all_eq_true] at hcs
      exact Text.exists_zeros hcs.1 hcs.2
  · rintro ⟨zeros, rfl⟩
    have hall : (List.replicate zeros '0' ++ Nat.toDigits 10 n).all Char.isDigit = true :=
      List.all_eq_true.mpr (List.forall_mem_append.mpr
        ⟨Text.isDigit_zeros zeros, Text.isDigit_toDigits n⟩)
    rw [hall, Text.digitsValue_append, Text.digitsValue_zeros, Text.digitsValue_toDigits]
    simp

/-! ## Whole numbers -/

/-- The whole number that a text spells, of whatever size. -/
def whole? (cs : List Char) : Option Int :=
  match cs with
  | '-' :: rest => (digits? rest).map fun n : Nat => -(n : Int)
  | '+' :: rest => (digits? rest).map fun n : Nat => (n : Int)
  | cs => (digits? cs).map fun n : Nat => (n : Int)

theorem integer?_eq (cs : List Char) : integer? cs = (whole? cs).filter Word.isSigned := by
  unfold integer?
  dsimp only
  split
  next rest => cases hread : digits? rest <;> simp [whole?, hread]
  next rest => cases hread : digits? rest <;> simp [whole?, hread]
  next => cases hread : digits? cs <;> simp [whole?, hread]

theorem whole?_eq_some_iff {cs : List Char} {n : Int} : whole? cs = some n ↔ IsNumeral cs n := by
  constructor
  · intro hread
    unfold whole? at hread
    split at hread
    next rest =>
      obtain ⟨m, hm, rfl⟩ := Option.map_eq_some_iff.mp hread
      obtain ⟨zeros, rfl⟩ := digits?_eq_some_iff.mp hm
      exact ⟨['-'], zeros, by simp, Or.inr (Or.inr ⟨rfl, by omega⟩)⟩
    next rest =>
      obtain ⟨m, hm, rfl⟩ := Option.map_eq_some_iff.mp hread
      obtain ⟨zeros, rfl⟩ := digits?_eq_some_iff.mp hm
      exact ⟨['+'], zeros, by simp, Or.inr (Or.inl ⟨rfl, by omega⟩)⟩
    next =>
      obtain ⟨m, hm, rfl⟩ := Option.map_eq_some_iff.mp hread
      obtain ⟨zeros, rfl⟩ := digits?_eq_some_iff.mp hm
      exact ⟨[], zeros, by simp, Or.inl ⟨rfl, by omega⟩⟩
  · rintro ⟨sign, zeros, rfl, hsign⟩
    have hdigits : digits? (List.replicate zeros '0' ++ Nat.toDigits 10 n.natAbs) = some n.natAbs :=
      digits?_eq_some_iff.mpr ⟨zeros, rfl⟩
    rcases hsign with ⟨rfl, hn⟩ | ⟨rfl, hn⟩ | ⟨rfl, hn⟩
    · -- Digits begin with no sign, so an unsigned numeral is not taken for a signed one.
      have hchars : ∀ c ∈ List.replicate zeros '0' ++ Nat.toDigits 10 n.natAbs, c.isDigit = true :=
        List.forall_mem_append.mpr ⟨Text.isDigit_zeros zeros, Text.isDigit_toDigits n.natAbs⟩
      rw [List.nil_append]
      unfold whole?
      split
      next hcs =>
        rw [hcs] at hchars
        cases hchars '-' List.mem_cons_self
      next hcs =>
        rw [hcs] at hchars
        cases hchars '+' List.mem_cons_self
      next =>
        rw [hdigits, Option.map_some, Int.natAbs_of_nonneg hn]
    · rw [List.singleton_append, whole?, hdigits, Option.map_some, Int.natAbs_of_nonneg hn]
    · rw [List.singleton_append, whole?, hdigits, Option.map_some, Int.ofNat_natAbs_of_nonpos hn,
        Int.neg_neg]

/-- A numeral is one of one number only. -/
theorem IsNumeral.unique {cs : List Char} {m n : Int} (hm : IsNumeral cs m) (hn : IsNumeral cs n) :
    m = n :=
  Option.some.inj ((whole?_eq_some_iff.mpr hm).symm.trans (whole?_eq_some_iff.mpr hn))

theorem isNumeral_toString (n : Int) : IsNumeral (toString n).toList n := by
  rw [Cell.toList_toString]
  by_cases hneg : n < 0
  · exact ⟨['-'], 0, by simp [hneg], Or.inr (Or.inr ⟨rfl, hneg.le⟩)⟩
  · exact ⟨[], 0, by simp [hneg], Or.inl ⟨rfl, not_lt.mp hneg⟩⟩

/-- Numerals are made of digits and signs alone. -/
theorem IsNumeral.chars {cs : List Char} {n : Int} (hnumeral : IsNumeral cs n) :
    ∀ c ∈ cs, c = '-' ∨ c = '+' ∨ c.isDigit = true := by
  obtain ⟨sign, zeros, rfl, hsign⟩ := hnumeral
  refine List.forall_mem_append.mpr ⟨?_, fun c hc => Or.inr (Or.inr ?_)⟩
  · rcases hsign with ⟨rfl, -⟩ | ⟨rfl, -⟩ | ⟨rfl, -⟩ <;> simp
  · rcases List.mem_append.mp hc with hc | hc
    · exact Text.isDigit_zeros zeros c hc
    · exact Text.isDigit_toDigits n.natAbs c hc

theorem integer?_eq_some_iff {cs : List Char} {n : Int} :
    integer? cs = some n ↔ IsNumeral cs n ∧ Word.isSigned n = true := by
  rw [integer?_eq, Option.filter_eq_some_iff, whole?_eq_some_iff]

/-! ## Spellings -/

theorem IsNumeral.not_blank {cs : List Char} {n : Int} (hnumeral : IsNumeral cs n) :
    ∀ c ∈ cs, Text.isBlank c = false := by
  intro c hc
  rcases hnumeral.chars c hc with rfl | rfl | hdigit
  · decide
  · decide
  · obtain ⟨hlow, hhigh⟩ : 48 ≤ c.toNat ∧ c.toNat ≤ 57 := Char.isDigit_iff_toNat.mp hdigit
    simp only [Text.isBlank, Text.isAsciiBlank, Bool.or_eq_false_iff, Bool.and_eq_false_iff,
      decide_eq_false_iff_not, beq_eq_false_iff_ne]
    omega

theorem isSpelling_iff {text : String} {n : Int} :
    IsSpelling text n ↔ IsNumeral (Text.strip Text.isBlank text.toList) n := by
  constructor
  · rintro ⟨before, numeral, after, htext, hbefore, hafter, hnumeral⟩
    have hstrip : Text.strip Text.isBlank text.toList = numeral := by
      rw [htext]
      exact Text.strip_between hbefore hafter
        (fun c hc => hnumeral.not_blank c (List.mem_of_mem_head? hc))
        fun c hc => hnumeral.not_blank c (List.mem_of_mem_getLast? hc)
    rwa [hstrip]
  · intro hnumeral
    obtain ⟨before, after, htext, hbefore, hafter⟩ := Text.exists_strip Text.isBlank text.toList
    exact ⟨before, _, after, htext, hbefore, hafter, hnumeral⟩

end ComicCatalog.Ident
