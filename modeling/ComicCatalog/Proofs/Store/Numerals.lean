import ComicCatalog.Proofs.Store.Cells

/-! # Whole numbers in comparisons

A whole number is handed to the database as its digits. Those that a word with a sign
holds are compared as they are. A larger one is compared as a floating-point number near
it, which is still larger than all whole numbers that a table holds, so digits equal no
stored whole number but their own.
-/

namespace ComicCatalog

namespace Binary64

/-! ## Numbers put together from their fields -/

theorem fields_assemble (negative : Bool) {field fraction : Nat} (hfield : field < 2048)
    (hfraction : fraction < leadingBit) :
    (assemble negative field fraction).negative = negative ∧
      (assemble negative field fraction).exponentField = field ∧
      (assemble negative field fraction).fraction = fraction := by
  have hbits : (assemble negative field fraction).bits.toNat =
      (if negative then signBit else 0) + field * leadingBit + fraction := by
    simp only [assemble, signBit, leadingBit] at hfraction ⊢
    rw [UInt64.toNat_ofNat']
    split <;> omega
  simp only [Binary64.negative, exponentField, Binary64.fraction, hbits, signBit, leadingBit] at hfraction ⊢
  cases negative with
  | false =>
      simp only [Bool.false_eq_true, if_false, decide_eq_false_iff_not]
      omega
  | true =>
      simp only [if_true, decide_eq_true_eq]
      omega

/-- A number with the leading bit at `2 ^ 52` or above is a whole number. -/
theorem signedRatio_assemble {field fraction : Nat} (hlow : 1075 ≤ field) (hhigh : field < 2047)
    (hfraction : fraction < leadingBit) :
    (assemble false field fraction).isFinite = true ∧
      (assemble false field fraction).signedRatio =
        ((((fraction + leadingBit) * power 2 ((field : Int) - 1075) : Nat) : Int), 1) := by
  have hlt : field < 2048 := by omega
  obtain ⟨hnegative, hexponent, hrest⟩ := fields_assemble false hlt hfraction
  have hscale : (assemble false field fraction).scale = field - 1075 := by
    rw [scale, hexponent]
    omega
  have hsignificand : (assemble false field fraction).significand = fraction + leadingBit := by
    rw [significand, hexponent, hrest, if_neg (by omega)]
  refine ⟨?_, ?_⟩
  · simp only [isFinite, hexponent, bne_iff_ne]
    omega
  · have hden : power 2 (-((field : Int) - 1075)) = 1 := by
      have hzero : (-((field : Int) - 1075)).toNat = 0 := by omega
      rw [power, hzero, Nat.pow_eq, pow_zero]
    rw [signedRatio, hnegative, ratio, hscale, hsignificand, hden]
    simp

/-! ## The numbers nearest to large whole numbers -/

/-- A whole number of 64 bits with the first one set has a significand of 53 bits, scaled
by `2 ^ 11` or, rounded up, `2 ^ 12`. -/
theorem ofRatio_beyond {m : Nat} (hlow : 9223372036854775808 ≤ m) (hhigh : m < 18446744073709551616) :
    ∃ field fraction, (field = 1086 ∨ field = 1087) ∧ fraction < leadingBit ∧
      ofRatio false m 1 = assemble false field fraction := by
  have hscale : ratioScale m 1 = 11 := by
    have hlow' : (9223372036854775808 : ℚ) ≤ m := by exact_mod_cast hlow
    have hhigh' : (m : ℚ) < 18446744073709551616 := by exact_mod_cast hhigh
    have hpower : (2 : ℚ) ^ (-11 : Int) = 1 / 2048 := by norm_num
    apply ratioScale_eq (by omega) one_ne_zero
    · rw [two_zpow_52, hpower, Nat.cast_one]
      linarith
    · rw [two_zpow_53, hpower, Nat.cast_one]
      linarith
  have hrounded : 4503599627370496 ≤ roundDiv m 2048 ∧ roundDiv m 2048 ≤ 9007199254740992 := by
    unfold roundDiv
    dsimp only
    split
    · omega
    · split
      · omega
      · split <;> omega
  have hpowers : power 2 (-11) = 1 ∧ power 2 11 = 2048 := ⟨rfl, rfl⟩
  have hmax : max (11 : Int) (-1074) = 11 := by decide
  rw [ofRatio_of_ne_zero false 1 (by omega), hscale, hmax]
  dsimp only
  simp only [hpowers.1, hpowers.2, Nat.mul_one, Nat.one_mul, leadingBit]
  split
  next =>
    refine ⟨1087, 0, Or.inr rfl, by decide, ?_⟩
    simp
  next hne =>
    refine ⟨1086, roundDiv m 2048 - 4503599627370496, Or.inl rfl, by omega, ?_⟩
    simp [not_lt.mpr hrounded.1]

/-- The number nearest to a whole number beyond a word is beyond all whole numbers in it. -/
theorem compareInt_beyond {m : Nat} (hlow : 9223372036854775808 ≤ m) (hhigh : m < 18446744073709551616)
    {n : Int} (hn : n ≤ 9223372036854775807) : compareInt n (ofRatio false m 1) = .lt := by
  obtain ⟨field, fraction, hfield, hfraction, hassemble⟩ := ofRatio_beyond hlow hhigh
  obtain ⟨hfinite, hratio⟩ := @signedRatio_assemble field fraction (by omega) (by omega) hfraction
  rw [hassemble, compareInt, hfinite, if_pos rfl, hratio, compare_lt_iff_lt]
  have hpower : 2048 ≤ power 2 ((field : Int) - 1075) := by
    rcases hfield with rfl | rfl <;> decide
  have hproduct : 4503599627370496 * 2048 ≤ (fraction + leadingBit) * power 2 ((field : Int) - 1075) :=
    Nat.mul_le_mul (Nat.le_add_left _ _) hpower
  have hcast : ((4503599627370496 * 2048 : Nat) : Int) ≤
      ((fraction + leadingBit) * power 2 ((field : Int) - 1075) : Nat) := by exact_mod_cast hproduct
  push_cast at hcast
  push_cast
  omega

/-- A decimal number without places behind its point is the nearest to a whole number. -/
theorem ofDecimal_natCast {digits places : Nat} (hpos : 0 < digits)
    (hplaces : (Nat.toDigits 10 digits).length + places ≤ 310) :
    ofDecimal false digits places = ofRatio false (digits * 10 ^ places) 1 := by
  have hden : power 10 (-places) = 1 := by
    rw [power, Int.toNat_neg_natCast, Nat.pow_eq, pow_zero]
  have hnum : power 10 places = 10 ^ places := by rw [power, Int.toNat_natCast, Nat.pow_eq]
  unfold ofDecimal
  extract_lets count
  rw [if_neg (by omega), if_neg (by omega), if_neg (by omega), hden, hnum]

end Binary64

namespace Word

/-- A whole number that JSON holds: one of 64 bits, with a sign or without. -/
def Fits (n : Int) : Prop :=
  minSigned ≤ n ∧ n ≤ maxUnsigned

instance (n : Int) : Decidable (Fits n) :=
  inferInstanceAs (Decidable (minSigned ≤ n ∧ n ≤ maxUnsigned))

theorem fits_of_isSigned {n : Int} (hword : isSigned n = true) : Fits n := by
  have hbounds := isSigned_iff.mp hword
  simp only [Fits, minSigned, maxUnsigned]
  omega

end Word

namespace Cell

/-- The digits of a number of 64 bits with the first one set are read as the number nearest to
it, but for its twentieth digit, which may be passed over. -/
theorem exists_realOf_toDigits {m : Nat} (hlow : 9223372036854775808 ≤ m)
    (hhigh : m < 18446744073709551616) :
    ∃ near, 9223372036854775808 ≤ near ∧ near < 18446744073709551616 ∧
      realOf false (Nat.toDigits 10 m) 0 = Binary64.ofRatio false near 1 := by
  have hlength : ∀ k, k < 18446744073709551616 → (Nat.toDigits 10 k).length ≤ 20 := fun k hk =>
    (Nat.length_toDigits_le_iff (by decide) (by decide)).mpr (by omega)
  have hdigits := hlength m hhigh
  by_cases hroom : m / 10 < fullSignificand
  · have hread : realOf false (Nat.toDigits 10 m) 0 = Binary64.ofDecimal false m (0 : Nat) := by
      rw [realOf_of_lt false 0 (by rwa [Text.digitsValue_toDigits]), Text.digitsValue_toDigits]
      rfl
    refine ⟨m, hlow, hhigh, ?_⟩
    rw [hread, Binary64.ofDecimal_natCast (by omega) (by omega), pow_zero, Nat.mul_one]
  · -- Nineteen digits fill the significand, and the twentieth is a place.
    have hfull : fullSignificand = 1844674407370955160 := rfl
    have hfront := hlength (m / 10) (by omega)
    have hleading : leadingDigits (Nat.toDigits 10 m) = ⟨m / 10, 1⟩ := by
      have hread : leadingDigits (Nat.toDigits 10 (m / 10)) = ⟨m / 10, 0⟩ := by
        rw [leadingDigits_of_lt (by rw [Text.digitsValue_toDigits]; omega), Text.digitsValue_toDigits]
      rw [leadingDigits] at hread ⊢
      rw [Nat.toDigits_eq_if (by decide), if_neg (by omega), List.foldl_concat, hread, addDigit,
        if_neg hroom]
      rfl
    have hread : realOf false (Nat.toDigits 10 m) 0 = Binary64.ofDecimal false (m / 10) (1 : Nat) := by
      rw [realOf, hleading]
      rfl
    refine ⟨m / 10 * 10, by omega, by omega, ?_⟩
    rw [hread, Binary64.ofDecimal_natCast (by omega) (by omega), pow_one]

/-- The digits of a whole number equal no stored whole number but their own. -/
theorem equals_operand_toString {n m : Int} (hn : Word.isSigned n = true) (hm : Word.Fits m) :
    (integer n).equals (operand .integer (toString m)) = true ↔ m = n := by
  cases hword : Word.isSigned m with
  | true => rw [operand_toString hword, equals_integer, eq_comm]
  | false =>
      have hbounds : ¬ (-9223372036854775808 ≤ m ∧ m ≤ 9223372036854775807) := by
        rw [← Word.isSigned_iff, hword]
        exact Bool.false_ne_true
      have hn' := Word.isSigned_iff.mp hn
      simp only [Word.Fits, Word.minSigned, Word.maxUnsigned] at hm
      have hread := literal?_toString_eq m
      have hpositive : ¬ m < 0 := by omega
      simp only [hword, Bool.false_eq_true, if_false, hpositive, decide_false] at hread
      obtain ⟨near, hlow, hhigh, hnear⟩ :=
        @exists_realOf_toDigits m.natAbs (by omega) (by omega)
      have hoperand : operand .integer (toString m) = .real (Binary64.ofRatio false near 1) := by
        simp only [operand, number?_ofText hread, Option.getD_some, hnear]
      have hless : Binary64.compareInt n (Binary64.ofRatio false near 1) = .lt :=
        Binary64.compareInt_beyond hlow hhigh hn'.2
      rw [hoperand]
      simp only [equals, order, hless]
      constructor
      · intro hequals
        simp at hequals
      · intro hsame
        omega

/-- Of all cells of a column of whole numbers, only the number itself is shown as its
digits. -/
theorem IsHeld.ofJson?_eq_toString {cell : Cell} (hheld : cell.IsHeld .integer) {n : Int} :
    Ident.ofJson? cell.toJson = some ⟨toString n⟩ ↔ cell = .integer n := by
  constructor
  · intro hshown
    cases cell with
    | null => cases hshown
    | blob bytes => cases hshown
    | integer m =>
        have htext : toString m = toString n := congrArg Ident.text (Option.some.inj hshown)
        rw [Int.repr_inj.mp htext]
    | real x =>
        exfalso
        cases hfinite : x.isFinite with
        | false => simp [toJson, hfinite, Ident.ofJson?] at hshown
        | true =>
            simp only [toJson, hfinite, if_true, Ident.ofJson?, JsonNumber.text, Option.some.injEq,
              Ident.mk.injEq] at hshown
            exact jsonText_ne_toString hfinite n hshown
    | text bytes =>
        exfalso
        have htext : Bytes.text bytes = toString n := congrArg Ident.text (Option.some.inj hshown)
        have hnone := hheld.number?_eq_none
        rw [htext, number?_ofText (literal?_toString_eq n)] at hnone
        cases hnone
  · rintro rfl
    rfl

end Cell

end ComicCatalog
