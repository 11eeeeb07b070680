import ComicCatalog.Proofs.Number.Rounding

/-! # Seventeen digits suffice

The shortest decimal number of a binary number is searched among grids of ever
more digits. Its value always rounds to the binary number: every accepted grid
point does, and on the grid of seventeen digits a neighbour is accepted.
-/

namespace ComicCatalog

/-- The value of a decimal number. -/
def Decimal.value (d : Decimal) : ℚ :=
  d.digits * (10 : ℚ) ^ d.exponent

/-- A positive number has as many digits as its size says. -/
theorem toDigits_bounds {n : Nat} (hn : n ≠ 0) :
    (10 : ℚ) ^ (((Nat.toDigits 10 n).length : Int) - 1) ≤ n ∧
      (n : ℚ) < 10 ^ ((Nat.toDigits 10 n).length : Int) := by
  have hlength : 0 < (Nat.toDigits 10 n).length := Nat.length_toDigits_pos
  have hhigh := (Nat.length_toDigits_le_iff (b := 10) (by norm_num) hlength).mp (le_refl _)
  constructor
  · rcases Nat.lt_or_ge 1 (Nat.toDigits 10 n).length with hlong | hshort
    · have hlow : 10 ^ ((Nat.toDigits 10 n).length - 1) ≤ n := by
        by_contra hlt
        have hle := (Nat.length_toDigits_le_iff (b := 10) (n := n) (by norm_num)
          (k := (Nat.toDigits 10 n).length - 1) (by omega)).mpr (by omega)
        omega
      have hcast : ((Nat.toDigits 10 n).length : Int) - 1 =
          (((Nat.toDigits 10 n).length - 1 : Nat) : Int) := by omega
      rw [hcast, zpow_natCast]
      exact_mod_cast hlow
    · have hone : (Nat.toDigits 10 n).length = 1 := by omega
      rw [hone]
      have hge : 1 ≤ n := Nat.one_le_iff_ne_zero.mpr hn
      norm_num
      exact_mod_cast hge
  · rw [zpow_natCast]
    exact_mod_cast hhigh

theorem Decimal.normalize_value (digits : Nat) (exponent : Int) (fuel : Nat) :
    (Decimal.normalize digits exponent fuel).value = digits * (10 : ℚ) ^ exponent := by
  induction fuel generalizing digits exponent with
  | zero => rfl
  | succ fuel ih =>
      rw [normalize]
      split
      next h =>
        have hdigits : (digits : ℚ) = (digits / 10 : Nat) * 10 := by
          have hexact : digits = digits / 10 * 10 := by omega
          exact_mod_cast hexact
        rw [ih, zpow_add_one₀ (by norm_num), hdigits]
        ring
      next => rfl

theorem Decimal.normalize_digits_le (digits : Nat) (exponent : Int) (fuel : Nat) :
    (Decimal.normalize digits exponent fuel).digits ≤ digits := by
  induction fuel generalizing digits exponent with
  | zero => exact le_refl _
  | succ fuel ih =>
      rw [normalize]
      split
      next => exact (ih _ _).trans (Nat.div_le_self digits 10)
      next => exact le_refl _

namespace Binary64

/-- A ratio from one on has as many digits before the point as its whole part. -/
theorem ratio_digits_bounds {num den : Nat} (hden : den ≠ 0) (hle : den ≤ num) :
    (10 : ℚ) ^ ((Nat.toDigits 10 (num / den)).length - 1 : Int) ≤ (num : ℚ) / den ∧
      (num : ℚ) / den < 10 ^ (Nat.toDigits 10 (num / den)).length := by
  have hquotient : num / den ≠ 0 := (Nat.div_pos hle (Nat.pos_of_ne_zero hden)).ne'
  obtain ⟨hlow, hhigh⟩ := toDigits_bounds hquotient
  have hfloor : (num / den : Nat) = ⌊(num : ℚ) / den⌋₊ := (Nat.floor_div_eq_div (K := ℚ) _ _).symm
  constructor
  · apply hlow.trans
    rw [hfloor]
    exact Nat.floor_le (by positivity)
  · rw [zpow_natCast] at hhigh
    have hlt : num / den < 10 ^ (Nat.toDigits 10 (num / den)).length := by exact_mod_cast hhigh
    have hreal : (num : ℚ) / den < (num / den : Nat) + 1 := by
      rw [hfloor]
      exact Nat.lt_floor_add_one _
    have hsucc : ((num / den : Nat) : ℚ) + 1 ≤ 10 ^ (Nat.toDigits 10 (num / den)).length := by
      exact_mod_cast hlt
    linarith

/-- A ratio below one is brought to one by about as many places as the whole part of its
inverse has digits. -/
theorem places_to_one {num den places : Nat} (hnum : num ≠ 0) (hle : num ≤ den)
    (hplaces : places + 1 = (Nat.toDigits 10 (den / num)).length) :
    num * 10 ^ places ≤ den ∧ den < num * 10 ^ (places + 1) := by
  have hquotient : den / num ≠ 0 := (Nat.div_pos hle (Nat.pos_of_ne_zero hnum)).ne'
  obtain ⟨hlow, hhigh⟩ := toDigits_bounds hquotient
  rw [← hplaces, Nat.cast_succ] at hlow hhigh
  rw [add_sub_cancel_right, zpow_natCast] at hlow
  constructor
  · have hnat : 10 ^ places ≤ den / num := by exact_mod_cast hlow
    rw [mul_comm]
    exact (Nat.mul_le_mul_right num hnat).trans (Nat.div_mul_le_self den num)
  · have hnat : den / num < 10 ^ (places + 1) := by exact_mod_cast hhigh
    rw [mul_comm]
    exact (Nat.div_lt_iff_lt_mul (Nat.pos_of_ne_zero hnum)).mp hnat

theorem ten_zpow_neg_le_iff {num den : Nat} (hden : den ≠ 0) (n : Nat) :
    (10 : ℚ) ^ (-(n : Int)) ≤ (num : ℚ) / den ↔ den ≤ num * 10 ^ n := by
  have hdenPos : (0 : ℚ) < den := by positivity
  rw [zpow_neg, zpow_natCast, le_div_iff₀ hdenPos, inv_mul_le_iff₀ (by positivity), mul_comm]
  norm_cast

/-- The leading digit of a ratio stands at its leading exponent. -/
theorem leadingExponent_spec {num den : Nat} (hnum : num ≠ 0) (hden : den ≠ 0) :
    (10 : ℚ) ^ leadingExponent num den ≤ (num : ℚ) / den ∧
      (num : ℚ) / den < 10 ^ (leadingExponent num den + 1) := by
  unfold leadingExponent
  split
  next hle =>
    rw [sub_add_cancel, zpow_natCast]
    exact ratio_digits_bounds hden hle
  next hlt =>
    have hlength : 0 < (Nat.toDigits 10 (den / num)).length := Nat.length_toDigits_pos
    generalize hplaces : (Nat.toDigits 10 (den / num)).length - 1 = places
    obtain ⟨hbelow, habove⟩ := places_to_one hnum (by omega)
      (by omega : places + 1 = (Nat.toDigits 10 (den / num)).length)
    have hpower : power 10 places = 10 ^ places := rfl
    dsimp only
    rw [hpower]
    split
    next hexact =>
      constructor
      · rw [ten_zpow_neg_le_iff hden]
        exact hexact.ge
      · have hvalue : (num : ℚ) / den = 10 ^ (-(places : Int)) := by
          rw [← hexact, Nat.cast_mul, Nat.cast_pow, Nat.cast_ofNat, zpow_neg, zpow_natCast]
          field_simp
        rw [hvalue]
        exact zpow_lt_zpow_right₀ (by norm_num) (by omega)
    next hless =>
      have hnext : (-(places : Int) - 1) = -((places + 1 : Nat) : Int) := by omega
      constructor
      · rw [hnext, ten_zpow_neg_le_iff hden]
        exact habove.le
      · rw [sub_add_cancel, ← not_le, ten_zpow_neg_le_iff hden]
        omega

/-! ## Accepted grid points -/

/-- A grid point is accepted exactly when its value rounds to the number. -/
theorem holds_iff (x : Binary64) (digits : Nat) (exponent : Int) :
    x.interval.holds digits exponent = true ↔ x.RoundsTo (digits * (10 : ℚ) ^ exponent) := by
  have htwo := power_div_power 2 (by norm_num) x.scale
  have hten := power_div_power 10 (by norm_num) exponent
  have htwoPos : (0 : ℚ) < power 2 (-x.scale) := by
    exact_mod_cast power_pos (by norm_num) _
  have htenPos : (0 : ℚ) < power 10 (-exponent) := by
    exact_mod_cast power_pos (by norm_num) _
  push_cast at htwo hten
  -- Both comparisons are multiplied by the same positive denominator.
  set factor : ℚ := 4 * power 2 (-x.scale) * power 10 (-exponent) with hfactor
  have hpos : 0 < factor := by positivity
  have hquarters : ∀ quarters : Nat,
      ((quarters * power 2 x.scale * power 10 (-exponent) : Nat) : ℚ) =
        quarters / 4 * 2 ^ x.scale * factor := by
    intro quarters
    rw [← htwo, hfactor]
    push_cast
    field_simp
  have hvalue : ((digits * power 10 exponent * (4 * power 2 (-x.scale)) : Nat) : ℚ) =
      digits * 10 ^ exponent * factor := by
    rw [← hten, hfactor]
    push_cast
    field_simp
  have hhigh : ((4 * x.significand + 2 : Nat) : ℚ) = 4 * x.significand + 2 := by push_cast; rfl
  have hlowest : (if x.fraction = 0 ∧ 1 < x.exponentField then 4 * x.significand - 1
      else 4 * x.significand - 2) = x.lowQuarters := rfl
  unfold Interval.holds RoundsTo
  simp only [interval, hlowest, decide_eq_true_eq]
  split
  · rw [Bool.and_eq_true, decide_eq_true_eq, decide_eq_true_eq, ← Nat.cast_le (α := ℚ),
      ← Nat.cast_le (α := ℚ), hquarters, hquarters, hvalue, mul_le_mul_iff_left₀ hpos,
      mul_le_mul_iff_left₀ hpos, hhigh]
  · rw [Bool.and_eq_true, decide_eq_true_eq, decide_eq_true_eq, ← Nat.cast_lt (α := ℚ),
      ← Nat.cast_lt (α := ℚ), hquarters, hquarters, hvalue, mul_lt_mul_iff_left₀ hpos,
      mul_lt_mul_iff_left₀ hpos, hhigh]

theorem onGrid?_roundsTo {x : Binary64} {lead : Int} {count : Nat} {d : Decimal}
    (hfound : onGrid? x.interval lead count = some d) : x.RoundsTo d.value := by
  unfold onGrid? at hfound
  extract_lets exponent num den below nearer farther at hfound
  split at hfound
  next hholds =>
    cases hfound
    rw [Decimal.normalize_value]
    exact (holds_iff _ _ _).mp hholds
  next =>
    split at hfound
    next hholds =>
      cases hfound
      rw [Decimal.normalize_value]
      exact (holds_iff _ _ _).mp hholds
    next => cases hfound

/-- A grid point has no more digits than the grid, but for a carry into the next place. -/
theorem onGrid?_digits_le {i : Interval} {lead : Int} {count : Nat} {d : Decimal} (hden : i.den ≠ 0)
    (hlead : (i.middle : ℚ) / i.den < 10 ^ (lead + 1)) (hfound : onGrid? i lead count = some d) :
    d.digits ≤ 10 ^ count := by
  unfold onGrid? at hfound
  extract_lets exponent num den below nearer farther at hfound
  have hdenPos : 0 < den := Nat.mul_pos (Nat.pos_of_ne_zero hden) (power_pos (by norm_num) _)
  -- The whole part on the grid has at most `count` digits; only its upper neighbour may carry.
  have hbelow : below < 10 ^ count := by
    have hratio : (num : ℚ) / den < 10 ^ count := by
      calc (num : ℚ) / den = i.middle / i.den * 10 ^ (-exponent) :=
            scaled_ratio i.middle i.den 10 (by norm_num) exponent
        _ < 10 ^ (lead + 1) * 10 ^ (-exponent) := by gcongr
        _ = 10 ^ (count : Int) := by
            rw [← zpow_add₀ (by norm_num)]
            congr 1
            simp only [exponent]
            ring
        _ = 10 ^ count := zpow_natCast 10 count
    rw [div_lt_iff₀ (by exact_mod_cast hdenPos)] at hratio
    exact (Nat.div_lt_iff_lt_mul hdenPos).mpr (by exact_mod_cast hratio)
  have hnearer : nearer ≤ 10 ^ count := by
    simp only [nearer]
    split <;> omega
  have hfarther : farther ≤ 10 ^ count := by
    simp only [farther]
    split <;> omega
  split at hfound
  next =>
    cases hfound
    exact (Decimal.normalize_digits_le _ _ _).trans hnearer
  next =>
    split at hfound
    next =>
      cases hfound
      exact (Decimal.normalize_digits_le _ _ _).trans hfarther
    next => cases hfound

/-- A value close to a number rounds to it: the interval reaches at least `2 ^ (-54)`
of the number to both sides. -/
theorem roundsTo_of_close {x : Binary64} (hfinite : x.isFinite = true)
    (hsignificand : x.significand ≠ 0) {v : ℚ}
    (hclose : |v - x.magnitude| < x.magnitude / 18014398509481984) : x.RoundsTo v := by
  have hpos : (0 : ℚ) < 2 ^ x.scale := by positivity
  have hfraction := x.fraction_lt
  obtain ⟨hlow, hhigh⟩ := abs_lt.mp hclose
  have hlt : x.significand < 9007199254740992 := by
    obtain ⟨-, hsignificand, -⟩ | ⟨-, -, hsignificand, -⟩ := fields_of_finite hfinite <;> omega
  have hcast : (x.significand : ℚ) < 9007199254740992 := by exact_mod_cast hlt
  have hquarters : (x.lowQuarters : ℚ) / 4 ≤
      x.significand - x.significand / 18014398509481984 := by
    -- Below a power of two the interval reaches half as far.
    unfold lowQuarters
    split
    next hboundary =>
      have hleading : x.significand = 4503599627370496 := by
        obtain ⟨hfield, -⟩ | ⟨-, -, hleading, -⟩ := fields_of_finite hfinite <;> omega
      rw [hleading]
      norm_num
    next =>
      rw [Nat.cast_sub (by omega)]
      push_cast
      linarith
  have hunder : x.lowQuarters / 4 * (2 : ℚ) ^ x.scale < v := by
    have hscaled := mul_le_mul_of_nonneg_right hquarters hpos.le
    rw [magnitude] at hlow
    linarith
  have hover : v < (4 * x.significand + 2) / 4 * (2 : ℚ) ^ x.scale := by
    have hscaled := mul_lt_mul_of_pos_right hcast hpos
    rw [magnitude] at hhigh
    linarith
  unfold RoundsTo
  split
  · exact ⟨hunder.le, hover.le⟩
  · exact ⟨hunder, hover⟩

theorem middle_ne_zero {x : Binary64} (hsignificand : x.significand ≠ 0) : x.interval.middle ≠ 0 :=
  Nat.mul_ne_zero (by omega) (power_pos (by norm_num) _).ne'

theorem den_ne_zero (x : Binary64) : x.interval.den ≠ 0 :=
  Nat.mul_ne_zero (by norm_num) (power_pos (by norm_num) _).ne'

/-- The ratio whose digits are searched is the magnitude. -/
theorem middle_div_den (x : Binary64) :
    (x.interval.middle : ℚ) / x.interval.den = x.magnitude := by
  have htwo := power_div_power 2 (by norm_num) x.scale
  rw [Nat.cast_ofNat] at htwo
  rw [magnitude, ← htwo]
  simp only [interval]
  push_cast
  field_simp

/-- The nearer whole neighbour of a quotient is at most half a unit away. -/
theorem nearer_neighbour {num den : Nat} (hden : den ≠ 0) :
    |((if 2 * (num % den) < den ∨ (2 * (num % den) = den ∧ num / den % 2 = 0) then num / den
      else num / den + 1 : Nat) : ℚ) - (num : ℚ) / den| ≤ 1 / 2 := by
  have hpos : (0 : ℚ) < den := by positivity
  have hmod := Nat.mod_lt num (Nat.pos_of_ne_zero hden)
  have hsplit : (num : ℚ) / den = (num / den : Nat) + (num % den : Nat) / (den : ℚ) := by
    have hnat : (num : ℚ) = den * (num / den : Nat) + (num % den : Nat) := by
      exact_mod_cast (Nat.div_add_mod num den).symm
    rw [eq_comm, eq_div_iff hpos.ne', hnat]
    field_simp
  rw [hsplit, abs_le]
  split
  next hlow =>
    have hhalf : ((num % den : Nat) : ℚ) / den ≤ 1 / 2 := by
      rw [div_le_iff₀ hpos]
      have hle : 2 * (num % den) ≤ den := by omega
      have hcast : (2 * (num % den : Nat) : ℚ) ≤ den := by exact_mod_cast hle
      linarith
    have hnonneg : (0 : ℚ) ≤ ((num % den : Nat) : ℚ) / den := by positivity
    constructor <;> linarith
  next hhigh =>
    have hhalf : (1 : ℚ) / 2 ≤ ((num % den : Nat) : ℚ) / den := by
      rw [le_div_iff₀ hpos]
      have hle : den ≤ 2 * (num % den) := by omega
      have hcast : (den : ℚ) ≤ 2 * (num % den : Nat) := by exact_mod_cast hle
      linarith
    have hone : ((num % den : Nat) : ℚ) / den ≤ 1 := by
      rw [div_le_one hpos]
      exact_mod_cast hmod.le
    push_cast
    constructor <;> linarith

/-- On the grid of seventeen digits a neighbour of a number is accepted. -/
theorem onGrid?_seventeen {x : Binary64} (hfinite : x.isFinite = true)
    (hsignificand : x.significand ≠ 0) :
    (onGrid? x.interval (leadingExponent x.interval.middle x.interval.den) 17).isSome = true := by
  have hden := x.den_ne_zero
  obtain ⟨hlead, -⟩ := leadingExponent_spec (middle_ne_zero hsignificand) hden
  rw [middle_div_den] at hlead
  unfold onGrid?
  extract_lets exponent num den below nearer farther
  have hratio : (num : ℚ) / den = x.magnitude * 10 ^ (-exponent) := by
    rw [← middle_div_den]
    exact scaled_ratio x.interval.middle x.interval.den 10 (by norm_num) exponent
  have hunit : (0 : ℚ) < 10 ^ exponent := by positivity
  -- A unit of the grid is at most the `10 ^ 16`th part of the number.
  have hgrid : (10 : ℚ) ^ exponent * 10000000000000000 ≤ x.magnitude := by
    refine le_trans (le_of_eq ?_) hlead
    have hten : (10000000000000000 : ℚ) = 10 ^ (16 : Int) := by norm_num
    rw [hten, ← zpow_add₀ (by norm_num)]
    congr 1
    simp only [exponent]
    push_cast
    ring
  have hholds : x.interval.holds nearer exponent = true := by
    rw [holds_iff]
    apply roundsTo_of_close hfinite hsignificand
    have hhalf : |(nearer : ℚ) - x.magnitude * 10 ^ (-exponent)| ≤ 1 / 2 := by
      rw [← hratio]
      exact nearer_neighbour (Nat.mul_ne_zero hden (power_pos (by norm_num) _).ne')
    have hdistance : |(nearer : ℚ) * 10 ^ exponent - x.magnitude| =
        |(nearer : ℚ) - x.magnitude * 10 ^ (-exponent)| * 10 ^ exponent := by
      rw [← abs_of_pos hunit, ← abs_mul, abs_of_pos hunit, sub_mul, mul_assoc, ← zpow_add₀ (by norm_num)]
      simp
    have hscaled := mul_le_mul_of_nonneg_right hhalf hunit.le
    rw [hdistance]
    linarith
  rw [if_pos hholds]
  rfl

/-- The decimal number found for a finite number has seventeen digits at most, or it is the
power of ten behind them. -/
theorem shortest_digits_le (x : Binary64) : x.shortest.digits ≤ 10 ^ 17 := by
  unfold shortest
  split
  next => exact Nat.zero_le _
  next hsignificand =>
    extract_lets i lead
    split
    next d hfound =>
      obtain ⟨n, hn, hgrid⟩ := List.exists_of_findSome?_eq_some hfound
      have hspec := leadingExponent_spec (middle_ne_zero hsignificand) x.den_ne_zero
      have hcount : n + 1 ≤ 17 := List.mem_range.mp hn
      exact (onGrid?_digits_le x.den_ne_zero hspec.2 hgrid).trans
        (Nat.pow_le_pow_right (by norm_num) hcount)
    next => exact Nat.zero_le _

/-- The decimal number found for a finite number rounds to it. -/
theorem shortest_roundsTo {x : Binary64} (hfinite : x.isFinite = true)
    (hsignificand : x.significand ≠ 0) : x.RoundsTo x.shortest.value := by
  unfold shortest
  rw [if_neg hsignificand]
  extract_lets i lead
  split
  next d hfound =>
    obtain ⟨n, -, hgrid⟩ := List.exists_of_findSome?_eq_some hfound
    exact onGrid?_roundsTo hgrid
  next hnone =>
    have hseventeen := List.findSome?_eq_none_iff.mp hnone 16 (by decide)
    have hsome := onGrid?_seventeen hfinite hsignificand
    rw [hseventeen] at hsome
    cases hsome

end Binary64

end ComicCatalog
