import ComicCatalog.Number.Shortest
import Mathlib.Algebra.Order.Floor.Semifield
import Mathlib.Tactic

/-! # Rounding to a binary number

The ratios that round to a binary number form an interval around it, reaching
half way to its neighbours. Rounding a ratio of that interval gives the number
back, whichever numerator and denominator the ratio is written with.
-/

namespace ComicCatalog.Binary64

/-- The magnitude of a finite number. -/
def magnitude (x : Binary64) : ℚ :=
  x.significand * (2 : ℚ) ^ x.scale

/-- The lower end of the ratios that round to a number, in quarters of its last
place. Below a power of two the neighbour is half as far away. -/
def lowQuarters (x : Binary64) : Nat :=
  if x.fraction = 0 ∧ 1 < x.exponentField then 4 * x.significand - 1 else 4 * x.significand - 2

/-- A ratio rounds to the magnitude of a number: it lies between the points half
way to the neighbours, which themselves round to the number with the even
significand. -/
def RoundsTo (x : Binary64) (v : ℚ) : Prop :=
  if x.significand % 2 = 0 then
    x.lowQuarters / 4 * (2 : ℚ) ^ x.scale ≤ v ∧
      v ≤ (4 * x.significand + 2) / 4 * (2 : ℚ) ^ x.scale
  else
    x.lowQuarters / 4 * (2 : ℚ) ^ x.scale < v ∧
      v < (4 * x.significand + 2) / 4 * (2 : ℚ) ^ x.scale

/-! ## Powers and fields -/

theorem power_pos {base : Nat} (hbase : 0 < base) (exponent : Int) : 0 < power base exponent :=
  Nat.pow_pos hbase

/-- A power and the power with the opposite exponent split a ratio's power into
numerator and denominator. -/
theorem power_div_power (base : Nat) (hbase : 0 < base) (exponent : Int) :
    (power base exponent : ℚ) / power base (-exponent) = (base : ℚ) ^ exponent := by
  have hne : (base : ℚ) ≠ 0 := by positivity
  rcases le_total 0 exponent with hnonneg | hnonpos
  · have hneg : (-exponent).toNat = 0 := by omega
    have hpow : (base : ℚ) ^ exponent = (base : ℚ) ^ exponent.toNat := by
      conv_lhs => rw [← Int.toNat_of_nonneg hnonneg]
      exact zpow_natCast _ _
    simp [power, hneg, hpow]
  · have hzero : exponent.toNat = 0 := by omega
    have hpow : (base : ℚ) ^ exponent = ((base : ℚ) ^ (-exponent).toNat)⁻¹ := by
      rw [← zpow_natCast, Int.toNat_of_nonneg (by omega), zpow_neg, inv_inv]
    simp [power, hzero, hpow]

/-- A scaled ratio, as numerator and denominator. -/
theorem scaled_ratio (num den base : Nat) (hbase : 0 < base) (exponent : Int) :
    ((num * power base (-exponent) : Nat) : ℚ) / (den * power base exponent : Nat) =
      (num : ℚ) / den * (base : ℚ) ^ (-exponent) := by
  have hpower := power_div_power base hbase (-exponent)
  rw [neg_neg] at hpower
  rw [← hpower]
  push_cast
  ring

theorem fraction_lt (x : Binary64) : x.fraction < 4503599627370496 :=
  Nat.mod_lt _ (by decide)

theorem exponentField_lt (x : Binary64) : x.exponentField < 2048 :=
  Nat.mod_lt _ (by decide)

/-- A number is put together again from its fields. -/
theorem assemble_fields (x : Binary64) :
    assemble x.negative x.exponentField x.fraction = x := by
  have hlt : x.bits.toNat < 18446744073709551616 := x.bits.toNat_lt
  have hbits : (if x.negative then signBit else 0) + x.exponentField * leadingBit + x.fraction =
      x.bits.toNat := by
    by_cases hsign : 9223372036854775808 ≤ x.bits.toNat
    · simp [negative, exponentField, fraction, signBit, leadingBit, hsign]
      omega
    · simp [negative, exponentField, fraction, signBit, leadingBit, hsign]
      omega
  simp only [assemble, hbits, UInt64.ofNat_toNat]

/-! ## Rounding a quotient -/

/-- The whole number that is nearest to a quotient, or the even one of two that are
equally near, is its rounding. -/
theorem roundDiv_eq {num den n : Nat}
    (hhigh : 2 * num < (2 * n + 1) * den ∨ 2 * num = (2 * n + 1) * den ∧ n % 2 = 0)
    (hlow : 2 * n * den < 2 * num + den ∨ 2 * n * den = 2 * num + den ∧ n % 2 = 0)
    (hden : 0 < den) : roundDiv num den = n := by
  have hsplit := Nat.div_add_mod num den
  have hmod := Nat.mod_lt num hden
  -- The bounds leave the quotient and the number above it; the remainder decides between them.
  have hupper : num / den ≤ n := by
    by_contra hgt
    have hstep : den * (n + 1) ≤ den * (num / den) := Nat.mul_le_mul_left den (by omega)
    have hexpand : (2 * n + 1) * den = 2 * (den * n) + den := by ring
    rw [Nat.mul_add, Nat.mul_one] at hstep
    rcases hhigh with hlt | ⟨heq, -⟩ <;> omega
  have hlower : n ≤ num / den + 1 := by
    by_contra hgt
    have hstep : den * (num / den + 2) ≤ den * n := Nat.mul_le_mul_left den (by omega)
    have hexpand : 2 * n * den = 2 * (den * n) := by ring
    rw [Nat.mul_add] at hstep
    rcases hlow with hlt | ⟨heq, -⟩ <;> omega
  have hexpand : (2 * n + 1) * den = 2 * (den * n) + den := by ring
  have hexpand' : 2 * n * den = 2 * (den * n) := by ring
  unfold roundDiv
  rcases Nat.lt_or_eq_of_le hupper with hbelow | hsame
  · have hn : n = num / den + 1 := by omega
    have hproduct : den * n = den * (num / den) + den := by rw [hn]; ring
    simp only
    split
    · omega
    · split
      · omega
      · split <;> omega
  · have hproduct : den * n = den * (num / den) := by rw [hsame]
    simp only
    split
    · omega
    · split
      · omega
      · split <;> omega

/-! ## Rounding a ratio -/

/-- The power of two by which a ratio is scaled to a significand of 53 bits. -/
def ratioScale (num den : Nat) : Int :=
  let guess : Int := (Nat.log2 num : Int) - Nat.log2 den - 53
  if num * power 2 (-guess) / (den * power 2 guess) < 2 * leadingBit then guess else guess + 1

theorem ofRatio_of_ne_zero (negative : Bool) {num : Nat} (den : Nat) (hnum : num ≠ 0) :
    ofRatio negative num den =
      let scale := max (ratioScale num den) (-1074)
      let rounded := roundDiv (num * power 2 (-scale)) (den * power 2 scale)
      let carried : Nat × Int :=
        if rounded = 2 * leadingBit then (leadingBit, scale + 1) else (rounded, scale)
      if carried.1 < leadingBit then assemble negative 0 carried.1
      else
        let exponentField := (carried.2 + 1075).toNat
        if 2047 ≤ exponentField then infinity negative
        else assemble negative exponentField (carried.1 - leadingBit) := by
  rw [ofRatio, if_neg hnum]
  rfl

theorem log2_bounds {n : Nat} (hn : n ≠ 0) :
    (2 : ℚ) ^ (Nat.log2 n : Int) ≤ n ∧ (n : ℚ) < 2 ^ ((Nat.log2 n : Int) + 1) := by
  have hlow := Nat.log2_self_le hn
  have hhigh := Nat.lt_log2_self (n := n)
  constructor
  · rw [zpow_natCast]
    exact_mod_cast hlow
  · rw [← Nat.cast_succ, zpow_natCast]
    exact_mod_cast hhigh

theorem two_zpow_52 : (2 : ℚ) ^ (52 : Int) = 4503599627370496 := by norm_num

theorem two_zpow_53 : (2 : ℚ) ^ (53 : Int) = 9007199254740992 := by norm_num

/-- The bit lengths of two numbers tell their ratio up to a factor of two on each side. -/
theorem ratio_log2_bounds {num den : Nat} (hnum : num ≠ 0) (hden : den ≠ 0) :
    (2 : ℚ) ^ (Nat.log2 num - Nat.log2 den - 1 : Int) ≤ (num : ℚ) / den ∧
      (num : ℚ) / den < (2 : ℚ) ^ (Nat.log2 num - Nat.log2 den + 1 : Int) := by
  obtain ⟨hnumLow, hnumHigh⟩ := log2_bounds hnum
  obtain ⟨hdenLow, hdenHigh⟩ := log2_bounds hden
  have hdenPos : (0 : ℚ) < den := by positivity
  constructor
  · rw [le_div_iff₀ hdenPos]
    calc (2 : ℚ) ^ (Nat.log2 num - Nat.log2 den - 1 : Int) * den
        ≤ 2 ^ (Nat.log2 num - Nat.log2 den - 1 : Int) * 2 ^ ((Nat.log2 den : Int) + 1) := by
          gcongr
      _ = 2 ^ (Nat.log2 num : Int) := by
          rw [← zpow_add₀ (by norm_num)]
          congr 1
          ring
      _ ≤ num := hnumLow
  · rw [div_lt_iff₀ hdenPos]
    calc (num : ℚ) < 2 ^ ((Nat.log2 num : Int) + 1) := hnumHigh
      _ = 2 ^ (Nat.log2 num - Nat.log2 den + 1 : Int) * 2 ^ (Nat.log2 den : Int) := by
          rw [← zpow_add₀ (by norm_num)]
          congr 1
          ring
      _ ≤ 2 ^ (Nat.log2 num - Nat.log2 den + 1 : Int) * den := by gcongr

/-- The scale brings a ratio between `2 ^ 52` and `2 ^ 53`. -/
theorem ratioScale_spec {num den : Nat} (hnum : num ≠ 0) (hden : den ≠ 0) :
    (2 : ℚ) ^ (52 : Int) ≤ (num : ℚ) / den * 2 ^ (-ratioScale num den) ∧
      (num : ℚ) / den * 2 ^ (-ratioScale num den) < (2 : ℚ) ^ (53 : Int) := by
  obtain ⟨hratioLow, hratioHigh⟩ := ratio_log2_bounds hnum hden
  set guess : Int := (Nat.log2 num : Int) - Nat.log2 den - 53 with hguess
  set v : ℚ := (num : ℚ) / den with hv
  have hlow : (2 : ℚ) ^ (52 : Int) ≤ v * 2 ^ (-guess) := by
    calc (2 : ℚ) ^ (52 : Int)
        = 2 ^ (Nat.log2 num - Nat.log2 den - 1 : Int) * 2 ^ (-guess) := by
          rw [← zpow_add₀ (by norm_num), hguess]
          congr 1
          ring
      _ ≤ v * 2 ^ (-guess) := by gcongr
  have hhigh : v * 2 ^ (-guess) < (2 : ℚ) ^ (54 : Int) := by
    calc v * 2 ^ (-guess)
        < 2 ^ (Nat.log2 num - Nat.log2 den + 1 : Int) * 2 ^ (-guess) := by gcongr
      _ = 2 ^ (54 : Int) := by
          rw [← zpow_add₀ (by norm_num), hguess]
          congr 1
          ring
  have hscaled := scaled_ratio num den 2 (by norm_num) guess
  push_cast at hscaled
  have hfloor : num * power 2 (-guess) / (den * power 2 guess) = ⌊v * 2 ^ (-guess)⌋₊ := by
    rw [← Nat.floor_div_eq_div (K := ℚ)]
    push_cast
    rw [hscaled]
  have hbound : 2 * leadingBit = 9007199254740992 := rfl
  rw [ratioScale, hfloor, hbound]
  -- The guess is the scale or one less than it.
  split
  next hlt =>
    refine ⟨hlow, ?_⟩
    rw [Nat.floor_lt (by positivity), Nat.cast_ofNat] at hlt
    rwa [two_zpow_53]
  next hge =>
    rw [not_lt, Nat.le_floor_iff (by positivity), Nat.cast_ofNat] at hge
    have hhalf : v * 2 ^ (-(guess + 1)) = v * 2 ^ (-guess) / 2 := by
      rw [neg_add, zpow_add₀ (by norm_num)]
      norm_num
      ring
    have hdouble : (2 : ℚ) ^ (54 : Int) = 18014398509481984 := by norm_num
    rw [hdouble] at hhigh
    rw [hhalf, two_zpow_52, two_zpow_53]
    constructor <;> linarith

/-- Only one scale brings a ratio between `2 ^ 52` and `2 ^ 53`. -/
theorem ratioScale_eq {num den : Nat} (hnum : num ≠ 0) (hden : den ≠ 0) {scale : Int}
    (hlow : (2 : ℚ) ^ (52 : Int) ≤ (num : ℚ) / den * 2 ^ (-scale))
    (hhigh : (num : ℚ) / den * 2 ^ (-scale) < (2 : ℚ) ^ (53 : Int)) :
    ratioScale num den = scale := by
  obtain ⟨hlow', hhigh'⟩ := ratioScale_spec hnum hden
  have hdouble : ∀ s t : Int, (2 : ℚ) ^ (52 : Int) ≤ (num : ℚ) / den * 2 ^ (-s) →
      (num : ℚ) / den * 2 ^ (-t) < (2 : ℚ) ^ (53 : Int) → s ≤ t := by
    intro s t hs ht
    by_contra hlt
    have hexp : (2 : ℚ) ^ (-s) * 2 ≤ 2 ^ (-t) := by
      rw [← zpow_add_one₀ (by norm_num)]
      exact zpow_le_zpow_right₀ (by norm_num) (by omega)
    have hscaled : (num : ℚ) / den * 2 ^ (-s) * 2 ≤ (num : ℚ) / den * 2 ^ (-t) := by
      rw [mul_assoc]
      gcongr
    rw [two_zpow_52] at hs
    rw [two_zpow_53] at ht
    linarith
  exact le_antisymm (hdouble _ _ hlow' hhigh) (hdouble _ _ hlow hhigh')

/-- A ratio below `2 ^ 52` at some scale is scaled further down. -/
theorem ratioScale_lt {num den : Nat} (hnum : num ≠ 0) (hden : den ≠ 0) {scale : Int}
    (hlow : (num : ℚ) / den * 2 ^ (-scale) < (2 : ℚ) ^ (52 : Int)) :
    ratioScale num den < scale := by
  obtain ⟨hlow', -⟩ := ratioScale_spec hnum hden
  by_contra hge
  have hexp : (2 : ℚ) ^ (-ratioScale num den) ≤ 2 ^ (-scale) :=
    zpow_le_zpow_right₀ (by norm_num) (by omega)
  have hscaled : (num : ℚ) / den * 2 ^ (-ratioScale num den) ≤ (num : ℚ) / den * 2 ^ (-scale) := by
    gcongr
  linarith

/-- A scaled ratio within half a unit of a whole number, or at half a unit from an
even one, is rounded to it. -/
theorem roundDiv_scaled {num den n : Nat} {scale : Int} (hden : den ≠ 0)
    (hhigh : (num : ℚ) / den * 2 ^ (-scale) < n + 1 / 2 ∨
      (num : ℚ) / den * 2 ^ (-scale) = n + 1 / 2 ∧ n % 2 = 0)
    (hlow : (n : ℚ) - 1 / 2 < (num : ℚ) / den * 2 ^ (-scale) ∨
      (n : ℚ) - 1 / 2 = (num : ℚ) / den * 2 ^ (-scale) ∧ n % 2 = 0) :
    roundDiv (num * power 2 (-scale)) (den * power 2 scale) = n := by
  have hpos : 0 < den * power 2 scale :=
    Nat.mul_pos (Nat.pos_of_ne_zero hden) (power_pos (by norm_num) scale)
  have hscaled := scaled_ratio num den 2 (by norm_num) scale
  rw [Nat.cast_ofNat] at hscaled
  rw [← hscaled] at hhigh hlow
  generalize num * power 2 (-scale) = a at *
  generalize den * power 2 scale = b at *
  have hb : (0 : ℚ) < b := by exact_mod_cast hpos
  apply roundDiv_eq _ _ hpos
  · -- Both bounds are multiplied out, so that they are about whole numbers.
    rw [div_lt_iff₀ hb, div_eq_iff hb.ne'] at hhigh
    rcases hhigh with hlt | ⟨heq, heven⟩
    · left
      have hcast : (2 * a : ℚ) < (2 * n + 1) * b := by linarith
      exact_mod_cast hcast
    · right
      have hcast : (2 * a : ℚ) = (2 * n + 1) * b := by linarith
      exact ⟨by exact_mod_cast hcast, heven⟩
  · rw [lt_div_iff₀ hb, eq_div_iff hb.ne'] at hlow
    rcases hlow with hlt | ⟨heq, heven⟩
    · left
      have hcast : (2 * n * b : ℚ) < 2 * a + b := by linarith
      exact_mod_cast hcast
    · right
      have hcast : (2 * n * b : ℚ) = 2 * a + b := by linarith
      exact ⟨by exact_mod_cast hcast, heven⟩

/-- Finite numbers are small ones, which share one scale, and those with a leading
bit. -/
theorem fields_of_finite {x : Binary64} (hfinite : x.isFinite = true) :
    (x.exponentField = 0 ∧ x.significand = x.fraction ∧ x.scale = -1074) ∨
      (1 ≤ x.exponentField ∧ x.exponentField < 2047 ∧
        x.significand = x.fraction + 4503599627370496 ∧ x.scale = x.exponentField - 1075) := by
  have hlt := x.exponentField_lt
  have hne : x.exponentField ≠ 2047 := by simpa [isFinite] using hfinite
  rcases Nat.eq_zero_or_pos x.exponentField with hzero | hpos
  · left
    simp [significand, scale, hzero]
  · right
    refine ⟨hpos, by omega, ?_, ?_⟩
    · rw [significand, if_neg hpos.ne']
      rfl
    · rw [scale]
      omega

/-- Rounding, seen at the scale of the number. -/
theorem roundsTo_scaled {x : Binary64} {v : ℚ} (hround : x.RoundsTo v) :
    ((x.lowQuarters : ℚ) / 4 < v * 2 ^ (-x.scale) ∨
        (x.lowQuarters : ℚ) / 4 = v * 2 ^ (-x.scale) ∧ x.significand % 2 = 0) ∧
      (v * 2 ^ (-x.scale) < x.significand + 1 / 2 ∨
        v * 2 ^ (-x.scale) = x.significand + 1 / 2 ∧ x.significand % 2 = 0) := by
  have hpos : (0 : ℚ) < 2 ^ x.scale := by positivity
  have hhalf : ((4 * x.significand + 2) / 4 : ℚ) = x.significand + 1 / 2 := by ring
  rw [zpow_neg, ← div_eq_mul_inv]
  unfold RoundsTo at hround
  rw [hhalf] at hround
  split at hround
  next heven =>
    obtain ⟨hlow, hhigh⟩ := hround
    -- An even significand takes the midpoints as well.
    rw [← le_div_iff₀ hpos] at hlow
    rw [← div_le_iff₀ hpos] at hhigh
    exact ⟨hlow.lt_or_eq.imp_right fun heq => ⟨heq, heven⟩,
      hhigh.lt_or_eq.imp_right fun heq => ⟨heq, heven⟩⟩
  next =>
    obtain ⟨hlow, hhigh⟩ := hround
    rw [← lt_div_iff₀ hpos] at hlow
    rw [← div_lt_iff₀ hpos] at hhigh
    exact ⟨Or.inl hlow, Or.inl hhigh⟩

/-- A ratio just below a power of two, on the side where numbers are closer, is
rounded up to it. -/
theorem ofRatio_below_binade {x : Binary64} (hfinite : x.isFinite = true)
    (hfraction : x.fraction = 0) (hfield : 1 < x.exponentField) {num den : Nat} (hnum : num ≠ 0)
    (hden : den ≠ 0) (hlow : (4503599627370496 : ℚ) - 1 / 4 ≤ (num : ℚ) / den * 2 ^ (-x.scale))
    (hhigh : (num : ℚ) / den * 2 ^ (-x.scale) < 4503599627370496) :
    ofRatio x.negative num den = x := by
  obtain ⟨hzero, -⟩ | ⟨-, hfield', -, hscale⟩ := fields_of_finite hfinite
  · omega
  -- The ratio has the scale below, where it is twice as many units and rounds up to a carry.
  have hdouble : (num : ℚ) / den * 2 ^ (-(x.scale - 1)) = (num : ℚ) / den * 2 ^ (-x.scale) * 2 := by
    rw [neg_sub, sub_eq_neg_add, zpow_add_one₀ (by norm_num)]
    ring
  have hexact : ratioScale num den = x.scale - 1 := by
    apply ratioScale_eq hnum hden
    · rw [hdouble, two_zpow_52]
      linarith
    · rw [hdouble, two_zpow_53]
      linarith
  have hrounded : roundDiv (num * power 2 (-(x.scale - 1))) (den * power 2 (x.scale - 1)) =
      2 * leadingBit := by
    have hcast : ((2 * leadingBit : Nat) : ℚ) = 9007199254740992 := by norm_num [leadingBit]
    apply roundDiv_scaled hden
    · left
      rw [hdouble, hcast]
      linarith
    · rw [hdouble, hcast]
      have hle : (9007199254740992 : ℚ) - 1 / 2 ≤ (num : ℚ) / den * 2 ^ (-x.scale) * 2 := by
        linarith
      exact hle.lt_or_eq.imp_right fun heq => ⟨heq, rfl⟩
  have hmax : max (x.scale - 1) (-1074) = x.scale - 1 := by omega
  have hexponent : (x.scale - 1 + 1 + 1075).toNat = x.exponentField := by omega
  have hassemble := x.assemble_fields
  rw [hfraction] at hassemble
  rw [ofRatio_of_ne_zero _ _ hnum, hexact]
  simp only [hmax, hrounded, if_true, Nat.lt_irrefl, if_false, hexponent, Nat.sub_self]
  rw [if_neg (by omega), hassemble]

/-- A ratio within half a unit of a number's significand is rounded to the number,
where the scale of the ratio is that of the number. -/
theorem ofRatio_at_scale {x : Binary64} (hfinite : x.isFinite = true) {num den : Nat}
    (hnum : num ≠ 0) (hden : den ≠ 0) (hscale : max (ratioScale num den) (-1074) = x.scale)
    (hhigh : (num : ℚ) / den * 2 ^ (-x.scale) < x.significand + 1 / 2 ∨
      (num : ℚ) / den * 2 ^ (-x.scale) = x.significand + 1 / 2 ∧ x.significand % 2 = 0)
    (hlow : (x.significand : ℚ) - 1 / 2 < (num : ℚ) / den * 2 ^ (-x.scale) ∨
      (x.significand : ℚ) - 1 / 2 = (num : ℚ) / den * 2 ^ (-x.scale) ∧ x.significand % 2 = 0) :
    ofRatio x.negative num den = x := by
  have hrounded := roundDiv_scaled hden hhigh hlow
  have hfraction := x.fraction_lt
  have hassemble := x.assemble_fields
  rw [ofRatio_of_ne_zero _ _ hnum]
  simp only [hscale, hrounded]
  obtain ⟨hfield, hsignificand, -⟩ | ⟨hfield, hfield', hsignificand, hexponent⟩ :=
    fields_of_finite hfinite
  · -- Neither kind of number is a carry; only small ones lack the leading bit.
    have hne : x.significand ≠ 2 * leadingBit := by
      rw [leadingBit]
      omega
    have hlt : x.significand < leadingBit := by
      rw [leadingBit]
      omega
    rw [if_neg hne, if_pos hlt, hsignificand, ← hfield, hassemble]
  · have hne : x.significand ≠ 2 * leadingBit := by
      rw [leadingBit]
      omega
    have hge : ¬x.significand < leadingBit := by
      rw [leadingBit]
      omega
    have hfraction' : x.significand - leadingBit = x.fraction := by
      rw [leadingBit]
      omega
    have hexponent' : (x.scale + 1075).toNat = x.exponentField := by omega
    rw [if_neg hne, if_neg hge, hexponent', hfraction', if_neg (by omega), hassemble]

/-- Below a power of two the numbers are closer, so that rounding starts a quarter of a
unit below it; elsewhere it starts half a unit below. -/
theorem lowQuarters_cases (x : Binary64) :
    x.lowQuarters = 4 * x.significand - 1 ∧ x.fraction = 0 ∧ 1 < x.exponentField ∨
      x.lowQuarters = 4 * x.significand - 2 ∧ ¬(x.fraction = 0 ∧ 1 < x.exponentField) := by
  unfold lowQuarters
  split
  next h => exact Or.inl ⟨rfl, h⟩
  next h => exact Or.inr ⟨rfl, h⟩

theorem half_le_lowQuarters (x : Binary64) : (x.significand : ℚ) - 1 / 2 ≤ x.lowQuarters / 4 := by
  have hle : 4 * x.significand ≤ x.lowQuarters + 2 := by
    rcases x.lowQuarters_cases with ⟨heq, -⟩ | ⟨heq, -⟩ <;> omega
  have hcast : (4 * x.significand : ℚ) ≤ x.lowQuarters + 2 := by exact_mod_cast hle
  linarith

/-- Only zero is rounded to from zero. -/
theorem ne_zero_of_roundsTo {x : Binary64} (hsignificand : x.significand ≠ 0) {v : ℚ}
    (hround : x.RoundsTo v) : v ≠ 0 := by
  rintro rfl
  have hpositive : 0 < x.lowQuarters := by
    rcases x.lowQuarters_cases with ⟨heq, -⟩ | ⟨heq, -⟩ <;> omega
  have hquarter : (0 : ℚ) < x.lowQuarters / 4 := by positivity
  rcases (roundsTo_scaled hround).1 with hlt | ⟨heq, -⟩
  · rw [zero_mul] at hlt
    linarith
  · rw [zero_mul] at heq
    linarith

/-- A ratio that rounds to a number is rounded to it. -/
theorem ofRatio_of_roundsTo {x : Binary64} (hfinite : x.isFinite = true)
    (hsignificand : x.significand ≠ 0) {num den : Nat} (hden : den ≠ 0)
    (hround : x.RoundsTo ((num : ℚ) / den)) : ofRatio x.negative num den = x := by
  obtain ⟨hlow, hhigh⟩ := roundsTo_scaled hround
  have hfraction := x.fraction_lt
  have hnum : num ≠ 0 := by
    rintro rfl
    exact ne_zero_of_roundsTo hsignificand hround (by simp)
  -- Half a unit below is a weaker bound than the end of the interval.
  have hlow' : (x.significand : ℚ) - 1 / 2 < (num : ℚ) / den * 2 ^ (-x.scale) ∨
      (x.significand : ℚ) - 1 / 2 = (num : ℚ) / den * 2 ^ (-x.scale) ∧ x.significand % 2 = 0 := by
    have hhalf := x.half_le_lowQuarters
    rcases hlow with hlt | ⟨heq, heven⟩
    · exact Or.inl (hhalf.trans_lt hlt)
    · rw [heq] at hhalf
      exact hhalf.lt_or_eq.imp_right fun heq => ⟨heq, heven⟩
  have hhalf : (num : ℚ) / den * 2 ^ (-x.scale) ≤ x.significand + 1 / 2 := by
    rcases hhigh with hlt | ⟨heq, -⟩
    · exact hlt.le
    · exact heq.le
  have hsmall : x.exponentField = 0 → (x.significand : ℚ) + 1 / 2 < 4503599627370496 := by
    intro hzero
    have hle : x.significand ≤ 4503599627370495 := by
      rw [significand, if_pos hzero]
      omega
    have hcast : (x.significand : ℚ) ≤ 4503599627370495 := by exact_mod_cast hle
    linarith
  by_cases hbelow : (num : ℚ) / den * 2 ^ (-x.scale) < 4503599627370496
  · rcases x.lowQuarters_cases with ⟨hlowEq, hzero, hone⟩ | ⟨hlowEq, hregular⟩
    · refine ofRatio_below_binade hfinite hzero hone hnum hden ?_ hbelow
      obtain ⟨hfield, -⟩ | ⟨-, -, hleading, -⟩ := fields_of_finite hfinite
      · omega
      · have hcast : (x.lowQuarters : ℚ) = 18014398509481983 := by
          rw [hlowEq, hleading, hzero]
          norm_num
        rw [hcast] at hlow
        rcases hlow with hlt | ⟨heq, -⟩ <;> linarith
    · -- Of the numbers that reach below `2 ^ 52`, only those of the least scale are regular.
      have hleast : x.scale = -1074 := by
        obtain ⟨-, -, hscale⟩ | ⟨hfield, -, hleading, hscale⟩ := fields_of_finite hfinite
        · exact hscale
        · by_contra hne
          have hge : 4503599627370497 ≤ x.significand := by omega
          have hcast : (4503599627370497 : ℚ) ≤ x.significand := by exact_mod_cast hge
          rcases hlow' with hlt | ⟨heq, -⟩ <;> linarith
      have hlt : ratioScale num den < x.scale := by
        apply ratioScale_lt hnum hden
        rw [two_zpow_52]
        exact hbelow
      exact ofRatio_at_scale hfinite hnum hden (by omega) hhigh hlow'
  · rw [not_lt] at hbelow
    -- A ratio from `2 ^ 52` units on has the scale of the number.
    obtain ⟨hfield, -⟩ | ⟨hfield, -, hleading, hscale⟩ := fields_of_finite hfinite
    · have hlt := hsmall hfield
      linarith
    · have hle : x.significand ≤ 9007199254740991 := by omega
      have hcast : (x.significand : ℚ) ≤ 9007199254740991 := by exact_mod_cast hle
      have hexact : ratioScale num den = x.scale := by
        apply ratioScale_eq hnum hden
        · rw [two_zpow_52]
          exact hbelow
        · rw [two_zpow_53]
          linarith
      exact ofRatio_at_scale hfinite hnum hden (by omega) hhigh hlow'

end ComicCatalog.Binary64
