import ComicCatalog.Proofs.Store.Numerals
import ComicCatalog.Proofs.Store.Sorting

/-! # Texts that equal stored values

A text equals a stored value where what it stands for has the same value. A column that
stores the text keeps a value with the same lowercase form, except that the least whole
number has two forms in a column of whole numbers: its digits, and those of the
floating-point number of that value, which such a column does not convert.
-/

namespace ComicCatalog

namespace Binary64

/-! ## Numbers that are read -/

theorem roundDiv_le {num den n : Nat} (hlt : num < n * den) : roundDiv num den ≤ n := by
  have hquotient : num / den < n := Nat.div_lt_of_lt_mul (by rwa [Nat.mul_comm])
  unfold roundDiv
  dsimp only
  split
  · omega
  · split
    · omega
    · split <;> omega

/-- At the scale of a ratio, or a larger one, it is rounded to 53 bits. -/
theorem roundDiv_scaled_le {num den : Nat} (hnum : num ≠ 0) (hden : den ≠ 0) {scale : Int}
    (hscale : ratioScale num den ≤ scale) :
    roundDiv (num * power 2 (-scale)) (den * power 2 scale) ≤ 2 * leadingBit := by
  have hpos : 0 < den * power 2 scale :=
    Nat.mul_pos (Nat.pos_of_ne_zero hden) (power_pos (by norm_num) scale)
  have hpos' : (0 : ℚ) < (den * power 2 scale : Nat) := by exact_mod_cast hpos
  have hpower : (2 : ℚ) ^ (-scale) ≤ 2 ^ (-ratioScale num den) :=
    zpow_le_zpow_right₀ (by norm_num) (by omega)
  have hbelow : ((num * power 2 (-scale) : Nat) : ℚ) / (den * power 2 scale : Nat) <
      9007199254740992 := by
    calc ((num * power 2 (-scale) : Nat) : ℚ) / (den * power 2 scale : Nat)
        = num / den * 2 ^ (-scale) := scaled_ratio num den 2 (by norm_num) scale
      _ ≤ num / den * 2 ^ (-ratioScale num den) := by gcongr
      _ < 2 ^ (53 : Int) := (ratioScale_spec hnum hden).2
      _ = 9007199254740992 := two_zpow_53
  rw [div_lt_iff₀ hpos'] at hbelow
  apply roundDiv_le
  exact_mod_cast hbelow

/-- A ratio is rounded to a number, if only an infinite one. -/
theorem isNaN_ofRatio (negative : Bool) (num : Nat) {den : Nat} (hden : den ≠ 0) :
    (ofRatio negative num den).isNaN = false := by
  by_cases hnum : num = 0
  · rw [ofRatio, if_pos hnum]
    cases negative <;> rfl
  · have hrounded := roundDiv_scaled_le hnum hden (le_max_left (ratioScale num den) (-1074))
    rw [ofRatio_of_ne_zero negative den hnum]
    extract_lets scale rounded carried exponentField
    -- A significand that is rounded up to `2 ^ 53` is carried to the next scale.
    have hcarried : carried.1 < 2 * leadingBit := by
      have hlt : leadingBit < 2 * leadingBit := by decide
      have hrounded' : rounded ≤ 2 * leadingBit := hrounded
      simp only [carried]
      split
      · exact hlt
      · omega
    split
    next hsmall =>
      obtain ⟨-, hfield, -⟩ := fields_assemble negative (Nat.zero_lt_succ 2047) hsmall
      rw [isNaN, hfield]
      rfl
    next =>
      split
      · cases negative <;> rfl
      · obtain ⟨-, hfield, -⟩ := @fields_assemble negative exponentField (carried.1 - leadingBit)
          (by omega) (by omega)
        have hne : exponentField ≠ 2047 := by omega
        rw [isNaN, hfield, beq_false_of_ne hne, Bool.false_and]

theorem isNaN_ofDecimal (negative : Bool) (digits : Nat) (exponent : Int) :
    (ofDecimal negative digits exponent).isNaN = false := by
  unfold ofDecimal
  extract_lets places
  split
  · cases negative <;> rfl
  · split
    · cases negative <;> rfl
    · split
      · cases negative <;> rfl
      · exact isNaN_ofRatio negative _ (power_pos (by norm_num) _).ne'

/-! ## Numbers by value -/

variable {x y : Binary64}

theorem magnitude_pos (hsignificand : x.significand ≠ 0) : 0 < x.magnitude := by
  have hpos : (0 : ℚ) < x.significand := by exact_mod_cast Nat.pos_of_ne_zero hsignificand
  unfold magnitude
  positivity

theorem roundsTo_magnitude (hsignificand : x.significand ≠ 0) : x.RoundsTo x.magnitude := by
  have hpos : (0 : ℚ) < 2 ^ x.scale := by positivity
  have hlow : (x.lowQuarters : ℚ) / 4 < x.significand := by
    have hlt : x.lowQuarters < 4 * x.significand := by
      rcases x.lowQuarters_cases with ⟨heq, -⟩ | ⟨heq, -⟩ <;> omega
    have hcast : (x.lowQuarters : ℚ) < 4 * x.significand := by exact_mod_cast hlt
    linarith
  have hunder := mul_lt_mul_of_pos_right hlow hpos
  have hover : (x.significand : ℚ) * 2 ^ x.scale < (4 * x.significand + 2) / 4 * 2 ^ x.scale := by
    apply mul_lt_mul_of_pos_right _ hpos
    linarith
  unfold RoundsTo magnitude
  split
  · exact ⟨hunder.le, hover.le⟩
  · exact ⟨hunder, hover⟩

/-- A finite number other than zero is rounded to from its own magnitude. -/
theorem ofRatio_ratio (hfinite : x.isFinite = true) (hsignificand : x.significand ≠ 0)
    (hsame : x.magnitude = y.magnitude) : ofRatio x.negative y.ratio.1 y.ratio.2 = x := by
  have hpower := power_div_power 2 (by norm_num) y.scale
  rw [Nat.cast_ofNat] at hpower
  have hratio : (y.ratio.1 : ℚ) / y.ratio.2 = x.magnitude := by
    rw [hsame, magnitude, ← hpower, ratio]
    push_cast
    ring
  have hden : y.ratio.2 ≠ 0 := (power_pos (by norm_num) _).ne'
  apply ofRatio_of_roundsTo hfinite hsignificand hden
  rw [hratio]
  exact roundsTo_magnitude hsignificand

/-- Finite numbers of one value, other than zero, are the same number. -/
theorem eq_of_signed_eq (hx : x.isFinite = true) (hy : y.isFinite = true)
    (hsignificand : x.significand ≠ 0) (hsame : x.signed = y.signed) : x = y := by
  have hpos := magnitude_pos hsignificand
  have hnonneg : 0 ≤ y.magnitude := by
    unfold magnitude
    positivity
  have hparts : x.negative = y.negative ∧ x.magnitude = y.magnitude := by
    unfold signed at hsame
    cases hnegative : x.negative <;> cases hnegative' : y.negative <;>
      simp only [hnegative, hnegative', if_true, Bool.false_eq_true, if_false] at hsame
    · exact ⟨rfl, hsame⟩
    · linarith
    · linarith
    · exact ⟨rfl, neg_injective hsame⟩
  have hsignificand' : y.significand ≠ 0 := by
    intro hzero
    rw [hparts.2, magnitude, hzero, Nat.cast_zero, zero_mul] at hpos
    exact lt_irrefl 0 hpos
  calc x = ofRatio x.negative x.ratio.1 x.ratio.2 := (ofRatio_ratio hx hsignificand rfl).symm
    _ = ofRatio y.negative x.ratio.1 x.ratio.2 := by rw [hparts.1]
    _ = y := ofRatio_ratio hy hsignificand' hparts.2.symm

theorem value_eq_coe {q : ℚ} (hvalue : x.value = ((q : WithTop ℚ) : WithBot (WithTop ℚ))) :
    x.isFinite = true ∧ x.signed = q := by
  unfold value at hvalue
  split at hvalue
  next hfinite => exact ⟨hfinite, strictMono_coe.injective hvalue⟩
  next =>
    split at hvalue
    · exact absurd hvalue.symm (WithBot.coe_ne_bot)
    · exact absurd hvalue.symm (coe_lt_top q).ne

/-- A number that has the value of a whole number is found to be that number. -/
theorem whole?_of_value {n : Int} (hvalue : x.value = (((n : ℚ) : WithTop ℚ) : WithBot (WithTop ℚ))) :
    x.whole? = some n := by
  obtain ⟨hfinite, hsigned⟩ := value_eq_coe hvalue
  have hden := x.signedRatio_pos
  rw [signed_eq, div_eq_iff hden.ne'] at hsigned
  have hratio : x.signedRatio.1 = n * x.signedRatio.2 := by exact_mod_cast hsigned
  have hne : (x.signedRatio.2 : Int) ≠ 0 := by
    have hpos : 0 < x.signedRatio.2 := by exact_mod_cast hden
    omega
  rw [whole?, hfinite, hratio, Int.mul_emod_left, Int.mul_ediv_cancel n hne]
  rfl

/-- No floating-point number is the greatest whole number of a word, which is odd and has more
digits than a significand. -/
theorem signed_ne_maxSigned (hfinite : x.isFinite = true) : x.signed ≠ (Word.maxSigned : ℚ) := by
  intro hsigned
  have hden := x.signedRatio_pos
  rw [signed_eq, div_eq_iff hden.ne'] at hsigned
  have hratio : x.signedRatio.1 = Word.maxSigned * x.signedRatio.2 := by exact_mod_cast hsigned
  have hlt : x.significand < 9007199254740992 := by
    have hfraction := x.fraction_lt
    obtain ⟨-, hsignificand, -⟩ | ⟨-, -, hsignificand, -⟩ := fields_of_finite hfinite <;> omega
  simp only [signedRatio, ratio, Word.maxSigned] at hratio
  -- Without a positive scale the numerator is too small, and with one it is even.
  rcases le_or_gt x.scale 0 with hscale | hscale
  · have hone : power 2 x.scale = 1 := by rw [power, Int.toNat_of_nonpos hscale, Nat.pow_eq, pow_zero]
    have hpos : 0 < power 2 (-x.scale) := power_pos (by norm_num) _
    rw [hone] at hratio
    split at hratio <;> omega
  · have hone : power 2 (-x.scale) = 1 := by
      rw [power, Int.toNat_of_nonpos (by omega), Nat.pow_eq, pow_zero]
    have hdouble : power 2 x.scale = power 2 (x.scale - 1) * 2 := by
      have hsucc : x.scale.toNat = (x.scale - 1).toNat + 1 := by omega
      rw [power, power, hsucc, Nat.pow_eq, Nat.pow_eq, pow_succ]
    rw [hone, hdouble, ← Nat.mul_assoc] at hratio
    split at hratio <;> omega

/-- Numbers of one value are the same number, unless they are zeros or none at all. -/
theorem eq_of_value_eq (hzero : x.value ≠ (((0 : ℚ) : WithTop ℚ) : WithBot (WithTop ℚ)))
    (hx : x.isNaN = false) (hy : y.isNaN = false) (hsame : x.value = y.value) : x = y := by
  cases hfinite : x.isFinite with
  | true =>
      have hvalue : x.value = ((x.signed : WithTop ℚ) : WithBot (WithTop ℚ)) := by
        rw [value, hfinite, if_pos rfl]
      obtain ⟨hfinite', hsigned⟩ := value_eq_coe (hsame.symm.trans hvalue)
      apply eq_of_signed_eq hfinite hfinite' _ hsigned.symm
      intro hsignificand
      apply hzero
      rw [hvalue, signed, magnitude, hsignificand, Nat.cast_zero, zero_mul, neg_zero, ite_self]
  | false =>
      -- Both are the infinity of one sign.
      have hinfinity : ∀ z : Binary64, z.isFinite = false → z.isNaN = false → z = infinity z.negative := by
        intro z hz hnan
        have hfield : z.exponentField = 2047 := by simpa [isFinite] using hz
        have hfraction : z.fraction = 0 := by simpa [isNaN, hfield] using hnan
        calc z = assemble z.negative z.exponentField z.fraction := (assemble_fields z).symm
          _ = infinity z.negative := by rw [hfield, hfraction, infinity]
      have hfinite' : y.isFinite = false := by
        by_contra hother
        have hvalue : y.value = ((y.signed : WithTop ℚ) : WithBot (WithTop ℚ)) := by
          rw [value, Bool.not_eq_false _ |>.mp hother, if_pos rfl]
        have hfinite' := (value_eq_coe (hsame.trans hvalue)).1
        rw [hfinite] at hfinite'
        cases hfinite'
      have hsign : x.negative = y.negative := by
        simp only [value, hfinite, hfinite', Bool.false_eq_true, if_false] at hsame
        cases hnegative : x.negative <;> cases hnegative' : y.negative <;>
          simp only [hnegative, hnegative', if_true, Bool.false_eq_true, if_false] at hsame
        · rfl
        · exact absurd hsame top_ne_bot
        · exact absurd hsame bot_ne_top
        · rfl
      rw [hinfinity x hfinite hx, hinfinity y hfinite' hy, hsign]

end Binary64

namespace Cell

/-- A number that is none. -/
def isNaN : Cell → Bool
  | .real x => x.isNaN
  | _ => false

/-! ## Values that equal a text -/

theorem sortKey_eq_of_equals {a b : Cell} (hequals : a.equals b = true) : a.sortKey = b.sortKey := by
  have hcompares := order_compares a b
  simp only [equals, Bool.and_eq_true, beq_iff_eq] at hequals
  rwa [hequals.2] at hcompares

/-- Nothing but itself equals a text or a blob. -/
theorem eq_of_equals_of_rank {cell other : Cell} (hrank : 2 ≤ cell.rank)
    (hequals : other.equals cell = true) : other = cell := by
  have hkey := sortKey_eq_of_equals hequals
  have hkind : other.rank = cell.rank := by rw [← fst_sortKey, hkey, fst_sortKey]
  have hbytes := congrArg (fun key => (ofLex (ofLex key).2).2) hkey
  have hinjective : Function.Injective (List.map UInt8.toNat) :=
    List.map_injective_iff.mpr fun _ _ => UInt8.toNat.inj
  cases cell with
  | text bytes =>
      cases other with
      | text others => exact congrArg text (hinjective hbytes)
      | _ => cases hkind
  | blob bytes =>
      cases other with
      | blob others => exact congrArg blob (hinjective hbytes)
      | _ => cases hkind
  | _ => simp [rank] at hrank

theorem eq_of_equals_text {cell : Cell} {bytes : Bytes} (hequals : cell.equals (.text bytes) = true) :
    cell = .text bytes :=
  eq_of_equals_of_rank (le_refl 2) hequals

theorem value_of_equals {x : Binary64} {n : Int}
    (hequals : (real x).equals (.integer n) = true ∨ (integer n).equals (.real x) = true) :
    x.value = (((n : ℚ) : WithTop ℚ) : WithBot (WithTop ℚ)) := by
  rcases hequals with hequals | hequals
  · exact congrArg (fun key => (ofLex (ofLex key).2).1) (sortKey_eq_of_equals hequals)
  · exact (congrArg (fun key => (ofLex (ofLex key).2).1) (sortKey_eq_of_equals hequals)).symm

/-- A floating-point number of the value of a whole number becomes it, unless it is the least
one. -/
theorem settle_of_value {x : Binary64} {n : Int} (hword : Word.isSigned n = true)
    (hleast : n ≠ Word.minSigned)
    (hvalue : x.value = (((n : ℚ) : WithTop ℚ) : WithBot (WithTop ℚ))) :
    (real x).settle = .integer n := by
  obtain ⟨hfinite, hsigned⟩ := Binary64.value_eq_coe hvalue
  have hgreatest : n ≠ Word.maxSigned := by
    rintro rfl
    exact Binary64.signed_ne_maxSigned hfinite hsigned
  have hbounds := Word.isSigned_iff.mp hword
  have hinside : Word.minSigned < n ∧ n < Word.maxSigned := by
    simp only [Word.minSigned, Word.maxSigned] at hleast hgreatest ⊢
    omega
  simp only [settle, Binary64.whole?_of_value hvalue, if_pos hinside]

theorem IsHeld.eq_of_equals_integer {cell : Cell} {n : Int} (hheld : cell.IsHeld .integer)
    (hleast : cell.equals (.integer Word.minSigned) = false) (hword : Word.isSigned n = true)
    (hequals : cell.equals (.integer n) = true) : cell = .integer n := by
  rcases eq_or_real_of_equals hequals with hsame | ⟨x, rfl⟩
  · exact hsame
  · have hne : n ≠ Word.minSigned := by
      rintro rfl
      rw [hequals] at hleast
      cases hleast
    exact hheld.stored_eq.symm.trans (settle_of_value hword hne (value_of_equals (Or.inl hequals)))

theorem IsHeld.settle_eq_of_equals_real {cell : Cell} {y : Binary64} (hheld : cell.IsHeld .integer)
    (hnan : cell.isNaN = false)
    (hleast : cell.equals (.integer Word.minSigned) = false) (hy : y.isNaN = false)
    (hequals : cell.equals (.real y) = true) : (real y).settle = cell := by
  cases cell with
  | null => cases hequals
  | text bytes => cases hequals
  | blob bytes => cases hequals
  | integer n =>
      have hne : n ≠ Word.minSigned := by
        rintro rfl
        rw [equals_integer.mpr rfl] at hleast
        cases hleast
      exact settle_of_value (hheld.isSigned n rfl) hne (value_of_equals (Or.inr hequals))
  | real x =>
      have hsame : x.value = y.value :=
        congrArg (fun key => (ofLex (ofLex key).2).1) (sortKey_eq_of_equals hequals)
      -- The two zeros have one value, but a column of whole numbers keeps neither of them.
      have hzero : x.value ≠ (((0 : ℚ) : WithTop ℚ) : WithBot (WithTop ℚ)) := by
        intro hzero
        have hsettled := settle_of_value (x := x) (n := 0) rfl (by decide) (by rw [hzero, Int.cast_zero])
        cases hheld.stored_eq.symm.trans hsettled
      rw [← Binary64.eq_of_value_eq hzero hnan hy hsame]
      exact hheld.stored_eq

/-- A column stores a text as the very value that the text equals there, if that is not the
least whole number. -/
theorem IsHeld.stored_eq_of_equals {cell : Cell} {affinity : Affinity} {text : String}
    (hheld : cell.IsHeld affinity) (hnan : cell.isNaN = false)
    (hleast : affinity = .integer → cell.equals (.integer Word.minSigned) = false)
    (hequals : cell.equals (operand affinity text) = true) :
    stored affinity (ofText text) = cell := by
  cases affinity with
  | text => exact (eq_of_equals_text hequals).symm
  | integer =>
      cases hnumber : number? (Bytes.ofText text) with
      | none =>
          have hstored : stored .integer (ofText text) = ofText text := by
            simp only [stored, ofText, hnumber]
          rw [operand, hnumber, Option.getD_none] at hequals
          rw [hstored, eq_of_equals_text hequals, ofText]
      | some number =>
          have hstored : stored .integer (ofText text) = number.settle := by
            simp only [stored, ofText, hnumber]
          rw [operand, hnumber, Option.getD_some] at hequals
          rw [hstored]
          rcases number?_cases hnumber with ⟨n, rfl, hword⟩ | ⟨negative, digits, exponent, rfl⟩
          · exact (hheld.eq_of_equals_integer (hleast rfl) hword hequals).symm
          · exact hheld.settle_eq_of_equals_real hnan (hleast rfl)
              (Binary64.isNaN_ofDecimal negative digits exponent) hequals

/-- A text that stands for a row number is stored as it. -/
theorem stored_of_rowNumber? {text : String} {n : Int} (hnumber : rowNumber? text = some n) :
    stored .integer (ofText text) = .integer n := by
  unfold rowNumber? at hnumber
  split at hnumber
  next m hsettle =>
    cases hnumber
    simp only [stored, ofText, operand] at hsettle ⊢
    cases hread : number? (Bytes.ofText text) with
    | some number => simpa [hread] using hsettle
    | none =>
        rw [hread] at hsettle
        cases hsettle
  next => cases hnumber

end Cell

end ComicCatalog
