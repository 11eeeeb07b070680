import ComicCatalog.Proofs.Text.Runs
import ComicCatalog.Settings.Variables
import Mathlib

/-! # Numerals in variables

Which texts are read as numbers. A whole number is digits behind a sign or none, within 64 bits. A
number with a point has digits on one side of it at least, and perhaps an exponent behind them.
-/

namespace ComicCatalog.Variables

/-- A sign, or none. -/
def IsSign (cs : List Char) : Prop :=
  cs = [] ∨ cs = ['+'] ∨ cs = ['-']

/-- One digit or more. -/
structure IsDigits (cs : List Char) : Prop where
  nonempty : cs ≠ []
  digits : ∀ c ∈ cs, c.isDigit = true

/-- A whole number that 64 bits hold, with a sign of which minus is taken for one. -/
def IsWhole (cs : List Char) : Prop :=
  ∃ sign digits, cs = sign ++ digits ∧ IsSign sign ∧ IsDigits digits ∧
    Text.digitsValue digits ≤ if sign = ['-'] then 2 ^ 63 else 2 ^ 64 - 1

/-- An exponent, or none. -/
def IsPower (cs : List Char) : Prop :=
  cs = [] ∨ ∃ mark sign digits, cs = mark :: (sign ++ digits) ∧ (mark = 'e' ∨ mark = 'E') ∧
    IsSign sign ∧ IsDigits digits

/-- A number with a point. -/
def IsPointed (cs : List Char) : Prop :=
  ∃ sign whole behind power, cs = sign ++ (whole ++ '.' :: (behind ++ power)) ∧ IsSign sign ∧
    (∀ c ∈ whole, c.isDigit = true) ∧ (∀ c ∈ behind, c.isDigit = true) ∧
    (whole ≠ [] ∨ behind ≠ []) ∧ IsPower power

/-! ## Signs -/

/-- Where a sign or none is followed by something else, it is cut off there. -/
theorem sign_append {sign tail : List Char} (hsign : IsSign sign)
    (htail : ∀ c ∈ tail.head?, c ≠ '-' ∧ c ≠ '+') :
    Toml.sign (sign ++ tail) = (decide (sign = ['-']), tail) := by
  rcases hsign with rfl | rfl | rfl
  · cases tail with
    | nil => rfl
    | cons c rest =>
        obtain ⟨hminus, hplus⟩ := htail c rfl
        simp [Toml.sign, hminus, hplus]
  · rfl
  · rfl

theorem exists_sign (cs : List Char) : ∃ sign, IsSign sign ∧ cs = sign ++ (Toml.sign cs).2 ∧
    (Toml.sign cs).1 = decide (sign = ['-']) := by
  unfold Toml.sign
  split
  · exact ⟨['-'], Or.inr (Or.inr rfl), rfl, rfl⟩
  · exact ⟨['+'], Or.inr (Or.inl rfl), rfl, rfl⟩
  · exact ⟨[], Or.inl rfl, rfl, rfl⟩

theorem not_sign_of_isDigit {c : Char} (hdigit : c.isDigit = true) : c ≠ '-' ∧ c ≠ '+' := by
  constructor
  · rintro rfl
    cases hdigit
  · rintro rfl
    cases hdigit

theorem IsDigits.not_sign {cs : List Char} (hdigits : IsDigits cs) :
    ∀ c ∈ cs.head?, c ≠ '-' ∧ c ≠ '+' :=
  fun c hc => not_sign_of_isDigit (hdigits.digits c (List.mem_of_mem_head? hc))

/-! ## Whole numbers -/

theorem signed?_append {sign digits : List Char} (hsign : IsSign sign) (hdigits : IsDigits digits) :
    signed? (sign ++ digits) = some (decide (sign = ['-']), Text.digitsValue digits) := by
  have hall : digits.all Char.isDigit = true := List.all_eq_true.mpr hdigits.digits
  simp [signed?, sign_append hsign hdigits.not_sign, hall, hdigits.nonempty]

theorem exists_of_signed? {cs : List Char} {negative : Bool} {n : Nat}
    (hread : signed? cs = some (negative, n)) : ∃ sign digits, cs = sign ++ digits ∧ IsSign sign ∧
      IsDigits digits ∧ negative = decide (sign = ['-']) ∧ n = Text.digitsValue digits := by
  obtain ⟨sign, hsign, hcs, hminus⟩ := exists_sign cs
  unfold signed? at hread
  simp only at hread
  split at hread
  next => cases hread
  next hdigits =>
    cases hread
    simp only [Bool.or_eq_true, List.isEmpty_iff, Bool.not_eq_true', not_or, Bool.not_eq_false,
      List.all_eq_true] at hdigits
    exact ⟨sign, _, hcs, hsign, ⟨hdigits.1, hdigits.2⟩, hminus, rfl⟩

/-- Exactly the whole numbers are read as such. -/
theorem isSome_whole?_iff {cs : List Char} : (whole? cs).isSome = true ↔ IsWhole cs := by
  constructor
  · intro hread
    unfold whole? at hread
    split at hread
    next n hsigned =>
      obtain ⟨sign, digits, hcs, hsign, hdigits, hminus, rfl⟩ := exists_of_signed? hsigned
      have hsign' : sign = ['-'] := of_decide_eq_true hminus.symm
      refine ⟨sign, digits, hcs, hsign, hdigits, ?_⟩
      split at hread
      next hword =>
        rw [if_pos hsign']
        have hbounds := Word.isSigned_iff.mp hword
        omega
      next => cases hread
    next n hsigned =>
      obtain ⟨sign, digits, hcs, hsign, hdigits, hplus, rfl⟩ := exists_of_signed? hsigned
      have hsign' : sign ≠ ['-'] := of_decide_eq_false hplus.symm
      refine ⟨sign, digits, hcs, hsign, hdigits, ?_⟩
      split at hread
      next hword =>
        rw [if_neg hsign']
        exact hword
      next => cases hread
    next => cases hread
  · rintro ⟨sign, digits, rfl, hsign, hdigits, hbound⟩
    unfold whole?
    -- The sign decides which of the two bounds counts.
    rw [signed?_append hsign hdigits]
    by_cases hminus : sign = ['-']
    · rw [if_pos hminus] at hbound
      have hword : Word.isSigned (-(Text.digitsValue digits : Int)) = true := by
        rw [Word.isSigned_iff]
        omega
      simp [hminus, hword]
    · rw [if_neg hminus] at hbound
      have hword : Text.digitsValue digits ≤ Word.maxUnsigned := hbound
      simp [hminus, hword]

/-! ## Numbers with a point -/

theorem isPointed_of_real? {cs : List Char} (hread : (real? cs).isSome = true) : IsPointed cs := by
  obtain ⟨sign, hsign, hcs, -⟩ := exists_sign cs
  unfold real? at hread
  dsimp only at hread
  split at hread
  next rest hrest =>
    have hwhole : (Toml.sign cs).2 =
        (Toml.sign cs).2.takeWhile Char.isDigit ++ '.' :: rest := by
      rw [← hrest, List.takeWhile_append_dropWhile]
    have hbehind : rest = rest.takeWhile Char.isDigit ++ rest.dropWhile Char.isDigit :=
      List.takeWhile_append_dropWhile.symm
    split at hread
    next => cases hread
    next hsome =>
      rw [List.isEmpty_iff, List.isEmpty_iff, not_and_or] at hsome
      refine ⟨sign, _, _, rest.dropWhile Char.isDigit, ?_, hsign,
        fun c hc => List.mem_takeWhile_imp hc, fun c hc => List.mem_takeWhile_imp hc, hsome, ?_⟩
      · rw [← hbehind, ← hwhole]
        exact hcs
      · split at hread
        next hpower => exact Or.inl hpower
        next mark power hpower =>
          split at hread
          next hmark =>
            cases hsigned : signed? power with
            | none => simp [hsigned] at hread
            | some found =>
                obtain ⟨sign, digits, rfl, hsign, hdigits, -⟩ := exists_of_signed? hsigned
                exact Or.inr ⟨mark, sign, digits, hpower, hmark, hsign, hdigits⟩
          next => cases hread
  next => cases hread

theorem real?_of_isPointed {cs : List Char} (hpointed : IsPointed cs) :
    (real? cs).isSome = true := by
  obtain ⟨sign, whole, behind, power, rfl, hsign, hwhole, hbehind, hsome, hpower⟩ := hpointed
  have hpoint : ∀ c ∈ ('.' :: (behind ++ power)).head?, c.isDigit = false := by simp
  have hstop : ∀ c ∈ power.head?, c.isDigit = false := by
    rcases hpower with rfl | ⟨mark, _, _, rfl, hmark, -⟩
    · simp
    · rcases hmark with rfl | rfl <;> simp
  have htail : ∀ c ∈ (whole ++ '.' :: (behind ++ power)).head?, c ≠ '-' ∧ c ≠ '+' := by
    cases whole with
    | nil => simp
    | cons first rest =>
        intro c hc
        cases hc
        exact not_sign_of_isDigit (hwhole first List.mem_cons_self)
  have hempty : ¬(whole.isEmpty = true ∧ behind.isEmpty = true) := by
    rwa [List.isEmpty_iff, List.isEmpty_iff, not_and_or]
  simp only [real?, sign_append hsign htail, Text.takeWhile_run hwhole hpoint,
    Text.dropWhile_run hwhole hpoint, Text.takeWhile_run hbehind hstop,
    Text.dropWhile_run hbehind hstop, if_neg hempty]
  rcases hpower with rfl | ⟨mark, sign, digits, rfl, hmark, hsign, hdigits⟩
  · rfl
  · simp only [if_pos hmark, signed?_append hsign hdigits]
    rfl

/-- Exactly the numbers with a point are read as such. -/
theorem isSome_real?_iff {cs : List Char} : (real? cs).isSome = true ↔ IsPointed cs :=
  ⟨isPointed_of_real?, real?_of_isPointed⟩

/-! ## Characters -/

/-- The characters that numbers are made of. -/
def IsNumeralChar (c : Char) : Prop :=
  c.isDigit = true ∨ c ∈ ['+', '-', '.', 'e', 'E']

theorem IsSign.chars {cs : List Char} (hsign : IsSign cs) : ∀ c ∈ cs, IsNumeralChar c := by
  rcases hsign with rfl | rfl | rfl <;> simp [IsNumeralChar]

theorem IsDigits.chars {cs : List Char} (hdigits : IsDigits cs) : ∀ c ∈ cs, IsNumeralChar c :=
  fun c hc => Or.inl (hdigits.digits c hc)

theorem IsPower.chars {cs : List Char} (hpower : IsPower cs) : ∀ c ∈ cs, IsNumeralChar c := by
  rcases hpower with rfl | ⟨mark, sign, digits, rfl, hmark, hsign, hdigits⟩
  · exact List.forall_mem_nil _
  · have hletter : IsNumeralChar mark := by rcases hmark with rfl | rfl <;> simp [IsNumeralChar]
    exact List.forall_mem_cons.mpr ⟨hletter, List.forall_mem_append.mpr ⟨hsign.chars, hdigits.chars⟩⟩

theorem IsWhole.chars {cs : List Char} (hwhole : IsWhole cs) : ∀ c ∈ cs, IsNumeralChar c := by
  obtain ⟨sign, digits, rfl, hsign, hdigits, -⟩ := hwhole
  exact List.forall_mem_append.mpr ⟨hsign.chars, hdigits.chars⟩

theorem IsPointed.chars {cs : List Char} (hpointed : IsPointed cs) : ∀ c ∈ cs, IsNumeralChar c := by
  obtain ⟨sign, whole, behind, power, rfl, hsign, hwhole, hbehind, -, hpower⟩ := hpointed
  have hfraction : ∀ c ∈ behind ++ power, IsNumeralChar c :=
    List.forall_mem_append.mpr ⟨fun c hc => Or.inl (hbehind c hc), hpower.chars⟩
  have hpoint : IsNumeralChar '.' := Or.inr (by simp)
  refine List.forall_mem_append.mpr ⟨hsign.chars, List.forall_mem_append.mpr ⟨?_, ?_⟩⟩
  · exact fun c hc => Or.inl (hwhole c hc)
  · exact List.forall_mem_cons.mpr ⟨hpoint, hfraction⟩

theorem not_isDelimiter_of_isNumeralChar {c : Char} (hchar : IsNumeralChar c) :
    isDelimiter c = false := by
  rw [← Bool.not_eq_true]
  intro hdelimiter
  simp only [isDelimiter, Bool.or_eq_true, decide_eq_true_eq] at hdelimiter
  rcases hdelimiter with (((rfl | rfl) | rfl) | rfl) | rfl <;> simp [IsNumeralChar] at hchar

end ComicCatalog.Variables
