import ComicCatalog.Json.Reader
import ComicCatalog.Proofs.Number.Shortest
import ComicCatalog.Proofs.Text.Runs
import Mathlib.Data.List.TakeWhile

/-! # Number literals

The JSON text of a finite number is a literal behind its sign: digits, perhaps more digits
behind a point, perhaps a power of ten. It has a point or a power, so it is never taken for a
whole number, and it spells a decimal number that rounds to the number that is written.
-/

namespace ComicCatalog

/-- The parts of a number literal behind its sign. -/
structure NumberLiteral where
  whole : List Char
  behind : List Char
  power : Option Int

namespace NumberLiteral

/-- The point with the digits behind it; neither is there without the other. -/
def pointChars (behind : List Char) : List Char :=
  if behind = [] then [] else '.' :: behind

/-- The power of ten, always with its sign. -/
def powerChars : Option Int → List Char
  | none => []
  | some power =>
      'e' :: ((if power < 0 then ['-'] else ['+']) ++ Nat.toDigits 10 power.natAbs)

/-- The text of a literal. -/
def chars (literal : NumberLiteral) : List Char :=
  literal.whole ++ (pointChars literal.behind ++ powerChars literal.power)

/-- The number that a literal spells. -/
def decimal (literal : NumberLiteral) : Decimal :=
  ⟨Text.digitsValue (literal.whole ++ literal.behind),
    literal.power.getD 0 - literal.behind.length⟩

/-- The literal is one of a floating-point number: its digits start with a zero only where they
are a zero, and it has a point or a power. -/
structure IsReal (literal : NumberLiteral) : Prop where
  whole : ∀ c ∈ literal.whole, c.isDigit = true
  nonempty : literal.whole ≠ []
  leading : 1 < literal.whole.length → literal.whole.head? ≠ some '0'
  behind : ∀ c ∈ literal.behind, c.isDigit = true
  power : ∀ power ∈ literal.power, power.natAbs ≤ 100000
  marked : literal.behind ≠ [] ∨ literal.power ≠ none

/-- The characters that literals and their signs are made of. -/
def IsChar (c : Char) : Prop :=
  c.isDigit = true ∨ c = '.' ∨ c = 'e' ∨ c = '-' ∨ c = '+'

variable {literal : NumberLiteral}

theorem IsReal.chars_ne_nil (hreal : literal.IsReal) : literal.chars ≠ [] :=
  List.append_ne_nil_of_left_ne_nil hreal.nonempty _

theorem IsReal.head (hreal : literal.IsReal) : ∀ c ∈ literal.chars.head?, c.isDigit = true := by
  obtain ⟨first, rest, hwhole⟩ := List.exists_cons_of_ne_nil hreal.nonempty
  intro c hc
  rw [chars, hwhole] at hc
  cases hc
  exact hreal.whole first (by rw [hwhole]; exact List.mem_cons_self)

theorem IsReal.isChar (hreal : literal.IsReal) : ∀ c ∈ literal.chars, IsChar c := by
  have hpoint : ∀ c ∈ pointChars literal.behind, IsChar c := by
    unfold pointChars
    split
    · exact List.forall_mem_nil _
    · exact List.forall_mem_cons.mpr ⟨Or.inr (Or.inl rfl), fun c hc => Or.inl (hreal.behind c hc)⟩
  have hpower : ∀ c ∈ powerChars literal.power, IsChar c := by
    cases literal.power with
    | none => exact List.forall_mem_nil _
    | some power =>
        have hsign : ∀ c ∈ (if power < 0 then ['-'] else ['+']), IsChar c := by
          split <;> simp [IsChar]
        have hdigits : ∀ c ∈ Nat.toDigits 10 power.natAbs, IsChar c :=
          fun c hc => Or.inl (Text.isDigit_toDigits _ c hc)
        exact List.forall_mem_cons.mpr
          ⟨Or.inr (Or.inr (Or.inl rfl)), List.forall_mem_append.mpr ⟨hsign, hdigits⟩⟩
  refine List.forall_mem_append.mpr ⟨fun c hc => Or.inl (hreal.whole c hc), ?_⟩
  exact List.forall_mem_append.mpr ⟨hpoint, hpower⟩

/-- The text of a literal has a point or an exponent. -/
theorem IsReal.mem_chars (hreal : literal.IsReal) : '.' ∈ literal.chars ∨ 'e' ∈ literal.chars := by
  rcases hreal.marked with hbehind | hpower
  · left
    simp [chars, pointChars, hbehind]
  · right
    obtain ⟨power, hsome⟩ := Option.ne_none_iff_exists'.mp hpower
    simp [chars, powerChars, hsome]

/-! ## Literals that are read -/

theorem toDigits_ne_nil (n : Nat) : Nat.toDigits 10 n ≠ [] := by
  have hlength : 0 < (Nat.toDigits 10 n).length := Nat.length_toDigits_pos
  exact List.ne_nil_of_length_pos hlength

/-- A written power is read back in front of what is neither a digit nor a power. -/
theorem exponent?_powerChars {power : Option Int} (hpower : ∀ n ∈ power, n.natAbs ≤ 100000)
    {rest : List Char} (hstop : ∀ c ∈ rest.head?, c.isDigit = false ∧ c ≠ 'e' ∧ c ≠ 'E') :
    Json.exponent? (powerChars power ++ rest) = some (power, rest) := by
  cases power with
  | none =>
      cases rest with
      | nil => rfl
      | cons c rest =>
          obtain ⟨-, hlower, hupper⟩ := hstop c rfl
          simp [powerChars, Json.exponent?, hlower, hupper]
  | some n =>
      have hn := hpower n rfl
      have hdigits := Text.isDigit_toDigits n.natAbs
      have hrest : ∀ c ∈ rest.head?, c.isDigit = false := fun c hc => (hstop c hc).1
      have htake := Text.takeWhile_run hdigits hrest
      have hdrop := Text.dropWhile_run hdigits hrest
      have hne := toDigits_ne_nil n.natAbs
      by_cases hneg : n < 0
      · simp only [powerChars, Json.exponent?, hneg]
        simp [htake, hdrop, hne]
        rw [Int.abs_eq_natAbs]
        omega
      · simp only [powerChars, Json.exponent?, hneg]
        simp [htake, hdrop, hne]
        rw [Int.abs_eq_natAbs]
        omega

/-! ## The layout of JSON numbers -/

theorem isDigit_chars (d : Decimal) : ∀ c ∈ d.chars, c.isDigit = true :=
  Text.isDigit_toDigits d.digits

theorem chars_ne_nil (d : Decimal) : d.chars ≠ [] :=
  toDigits_ne_nil d.digits

theorem digitsValue_chars (d : Decimal) : Text.digitsValue d.chars = d.digits :=
  Text.digitsValue_toDigits d.digits

/-- The digits of a number other than zero do not start with a zero. -/
theorem head?_toDigits_ne {n : Nat} (hn : n ≠ 0) : (Nat.toDigits 10 n).head? ≠ some '0' := by
  induction n using Nat.strongRecOn with
  | ind n ih =>
      rw [Nat.toDigits_eq_if (by decide)]
      split
      next hlt =>
        intro hhead
        have hdigit : ∀ n < 10, n ≠ 0 → n.digitChar ≠ '0' := by decide
        exact hdigit n hlt hn (Option.some.inj hhead)
      next hge =>
        rw [List.head?_append_of_ne_nil _ (toDigits_ne_nil _)]
        exact ih (n / 10) (by omega) (by omega)

/-- Digits of a decimal number, with zeros behind them only if it is not zero, do not start with a
zero unless they are one. -/
theorem head?_ne_of_prefix {d : Decimal} {whole zeros : List Char} (hfront : whole <+: d.chars ++ zeros)
    (hzero : d.digits = 0 → zeros = []) (hlength : 1 < whole.length) : whole.head? ≠ some '0' := by
  by_cases hdigits : d.digits = 0
  · have hle := hfront.length_le
    rw [hzero hdigits, List.append_nil, Decimal.chars, hdigits] at hle
    exact absurd hlength (not_lt.mpr hle)
  · have hne : whole ≠ [] := List.ne_nil_of_length_pos (by omega)
    have hhead := head?_toDigits_ne hdigits
    obtain ⟨after, hafter⟩ := hfront
    have hsame : (whole ++ after).head? = whole.head? := List.head?_append_of_ne_nil whole hne
    rwa [← hsame, hafter, List.head?_append_of_ne_nil _ (chars_ne_nil d)]

/-- Digits with a point or zeros spell the value of the decimal number. Only the zeros make it
longer. -/
theorem exists_positional (d : Decimal) (hzero : d.digits = 0 → d.exponent ≤ 0) :
    ∃ literal : NumberLiteral, literal.IsReal ∧
      literal.chars = NumberLayout.json.positionalChars d ∧ literal.decimal.value = d.value ∧
      literal.decimal.digits ≤ d.digits * 10 ^ (d.exponent.toNat + 1) := by
  have hdigits := isDigit_chars d
  have hne := chars_ne_nil d
  have hvalue := digitsValue_chars d
  have hle : d.digits ≤ d.digits * 10 ^ (d.exponent.toNat + 1) :=
    Nat.le_mul_of_pos_right _ (by positivity)
  unfold NumberLayout.positionalChars
  extract_lets count
  split
  next hexponent =>
    -- Zeros fill up to the point, and a zero stands behind it.
    refine ⟨⟨d.chars ++ List.replicate d.exponent.toNat '0', ['0'], none⟩, ⟨?_, ?_, ?_, ?_, ?_, ?_⟩, ?_, ?_, ?_⟩
    · exact List.forall_mem_append.mpr ⟨hdigits, Text.isDigit_zeros _⟩
    · simp [hne]
    · refine head?_ne_of_prefix (List.prefix_refl _) fun hnone => ?_
      have hle := hzero hnone
      simp [show d.exponent.toNat = 0 by omega]
    · exact Text.isDigit_zeros 1
    · rintro power ⟨⟩
    · exact Or.inl (by simp)
    · simp [chars, pointChars, powerChars, NumberLayout.json]
    · have hpow : (10 : ℚ) ^ d.exponent.toNat = 10 ^ d.exponent := by
        rw [← zpow_natCast, Int.toNat_of_nonneg hexponent]
      simp only [decimal, Decimal.value, Text.digitsValue_append, hvalue, Text.digitsValue_zeros,
        List.length_replicate, List.length_singleton]
      push_cast
      rw [hpow]
      norm_num [Text.digitsValue, Text.ofDigits]
      ring
    · simp only [decimal, Text.digitsValue_append, hvalue, Text.digitsValue_zeros,
        List.length_replicate, List.length_singleton, Nat.add_zero, pow_succ]
      exact (Nat.mul_assoc _ _ _).le
  next hexponent =>
    split
    next hcount =>
      -- The point falls among the digits.
      have hbehind : d.chars.drop (count + d.exponent).toNat ≠ [] := by
        rw [Ne, List.drop_eq_nil_iff]
        omega
      refine ⟨⟨d.chars.take (count + d.exponent).toNat, d.chars.drop (count + d.exponent).toNat, none⟩,
        ⟨?_, ?_, ?_, ?_, ?_, ?_⟩, ?_, ?_, ?_⟩
      · exact fun c hc => hdigits c (List.mem_of_mem_take hc)
      · simp [hne]
        omega
      · have hfront : d.chars.take (count + d.exponent).toNat <+: d.chars ++ [] := by
          rw [List.append_nil]
          exact List.take_prefix _ _
        exact head?_ne_of_prefix hfront fun _ => rfl
      · exact fun c hc => hdigits c (List.mem_of_mem_drop hc)
      · rintro power ⟨⟩
      · exact Or.inl hbehind
      · simp only [chars, pointChars, powerChars, if_neg hbehind, List.append_nil]
      · have hpower : 0 - ((d.chars.drop (count + d.exponent).toNat).length : Int) = d.exponent := by
          rw [List.length_drop]
          omega
        simp only [decimal, List.take_append_drop, hvalue, Option.getD_none, hpower]
      · simpa only [decimal, List.take_append_drop, hvalue] using hle
    next hcount =>
      -- Zeros stand between the point and the digits.
      have hbehind : List.replicate (-(count + d.exponent)).toNat '0' ++ d.chars ≠ [] := by simp [hne]
      have hspelled : Text.digitsValue (['0'] ++ (List.replicate (-(count + d.exponent)).toNat '0' ++
          d.chars)) = d.digits := by
        rw [Text.digitsValue_append, Text.digitsValue_append, Text.digitsValue_zeros, hvalue]
        simp [Text.digitsValue, Text.ofDigits]
      refine ⟨⟨['0'], List.replicate (-(count + d.exponent)).toNat '0' ++ d.chars, none⟩,
        ⟨?_, ?_, ?_, ?_, ?_, ?_⟩, ?_, ?_, ?_⟩
      · exact Text.isDigit_zeros 1
      · simp
      · exact fun hlength => absurd hlength (lt_irrefl 1)
      · exact List.forall_mem_append.mpr ⟨Text.isDigit_zeros _, hdigits⟩
      · rintro power ⟨⟩
      · exact Or.inl hbehind
      · simp only [chars, pointChars, powerChars, if_neg hbehind, List.append_nil]
        rfl
      · have hpower : 0 - ((List.replicate (-(count + d.exponent)).toNat '0' ++ d.chars).length : Int) =
            d.exponent := by
          rw [List.length_append, List.length_replicate]
          omega
        simp only [decimal, hspelled, Option.getD_none, hpower]
      · simpa only [decimal, hspelled] using hle

/-- One digit, the rest behind a point, and an exponent spell the value too. -/
theorem exists_scientific (d : Decimal)
    (hlead : ((d.chars.length : Int) - 1 + d.exponent).natAbs ≤ 100000) :
    ∃ literal : NumberLiteral, literal.IsReal ∧
      literal.chars = NumberLayout.json.exponentChars d (d.chars.length - 1 + d.exponent) ∧
      literal.decimal.value = d.value ∧ literal.decimal.digits = d.digits := by
  have hdigits := isDigit_chars d
  have hvalue := digitsValue_chars d
  have hfill : 1 - (Nat.toDigits 10 ((d.chars.length : Int) - 1 + d.exponent).natAbs).length = 0 := by
    have hlength := List.length_pos_of_ne_nil
      (toDigits_ne_nil ((d.chars.length : Int) - 1 + d.exponent).natAbs)
    omega
  obtain ⟨digit, rest, hchars⟩ := List.exists_cons_of_ne_nil (chars_ne_nil d)
  rw [hchars, List.forall_mem_cons] at hdigits
  have hspelled : Text.digitsValue ([digit] ++ rest) = d.digits := by
    rw [List.singleton_append, ← hchars, hvalue]
  refine ⟨⟨[digit], rest, some (d.chars.length - 1 + d.exponent)⟩, ⟨?_, ?_, ?_, ?_, ?_, ?_⟩, ?_, ?_,
    hspelled⟩
  · exact List.forall_mem_singleton.mpr hdigits.1
  · simp
  · exact fun hlength => absurd hlength (lt_irrefl 1)
  · exact hdigits.2
  · rintro power ⟨⟩
    exact hlead
  · exact Or.inr (by simp)
  · unfold NumberLayout.exponentChars
    simp only [NumberLayout.json, hfill, List.replicate_zero, List.append_nil, if_true, chars,
      powerChars, pointChars]
    rw [hchars]
    cases rest <;> simp
  · have hpower : (d.chars.length : Int) - 1 + d.exponent - (rest.length : Int) = d.exponent := by
      rw [hchars, List.length_cons]
      omega
    simp only [decimal, Option.getD_some, hpower, hspelled]

/-- With the zeros of the positional layout digits are still few. -/
theorem digits_mul_le {d : Decimal} (hmost : d.digits ≤ 10 ^ 17)
    (hlead : (d.chars.length : Int) - 1 + d.exponent ≤ 15) :
    d.digits * 10 ^ (d.exponent.toNat + 1) ≤ 10 ^ 18 := by
  have hlength : 0 < d.chars.length := List.length_pos_of_ne_nil (chars_ne_nil d)
  rcases lt_or_ge d.exponent 0 with hnegative | hexponent
  · rw [show d.exponent.toNat + 1 = 1 by omega]
    omega
  · have hlt : d.digits < 10 ^ d.chars.length :=
      (Nat.length_toDigits_le_iff (by decide) hlength).mp (le_refl _)
    calc d.digits * 10 ^ (d.exponent.toNat + 1)
        ≤ 10 ^ d.chars.length * 10 ^ (d.exponent.toNat + 1) := Nat.mul_le_mul_right _ hlt.le
      _ = 10 ^ (d.chars.length + (d.exponent.toNat + 1)) := (Nat.pow_add _ _ _).symm
      _ ≤ 10 ^ 18 := Nat.pow_le_pow_right (by decide) (by omega)

/-- The JSON layout of a decimal number with few digits is a literal of its value with few
digits. -/
theorem exists_decimalChars (d : Decimal) (hmost : d.digits ≤ 10 ^ 17)
    (hzero : d.digits = 0 → d.exponent ≤ 0)
    (hlead : ((d.chars.length : Int) - 1 + d.exponent).natAbs ≤ 100000) :
    ∃ literal : NumberLiteral, literal.IsReal ∧
      literal.chars = NumberLayout.json.decimalChars d ∧ literal.decimal.value = d.value ∧
      literal.decimal.digits ≤ 10 ^ 18 := by
  simp only [NumberLayout.decimalChars, NumberLayout.json]
  split
  next hbounds =>
    obtain ⟨literal, hreal, hchars, hvalue, hdigits⟩ := exists_positional d hzero
    exact ⟨literal, hreal, hchars, hvalue, hdigits.trans (digits_mul_le hmost hbounds.2)⟩
  next =>
    obtain ⟨literal, hreal, hchars, hvalue, hdigits⟩ := exists_scientific d hlead
    exact ⟨literal, hreal, hchars, hvalue, by omega⟩

end NumberLiteral

namespace Binary64

variable {x : Binary64}

/-! ## Reading back -/

theorem two_pow_1024_lt : (2 : ℚ) ^ (1024 : Int) < 10 ^ (310 : Int) := by
  have hnat : 2 ^ 1024 < 10 ^ 310 := by decide +kernel
  exact_mod_cast hnat

theorem ten_pow_331_le : (10 : ℚ) ^ (-331 : Int) ≤ 2 ^ (-1075 : Int) := by
  have hnat : 2 ^ 1075 ≤ 10 ^ 331 := by decide +kernel
  rw [zpow_neg, zpow_neg]
  exact inv_anti₀ (by positivity) (by exact_mod_cast hnat)

/-- What rounds to a finite number other than zero lies within the range of finite
numbers. -/
theorem roundsTo_bounds (hfinite : x.isFinite = true) (hsignificand : x.significand ≠ 0) {v : ℚ}
    (hround : x.RoundsTo v) : (10 : ℚ) ^ (-331 : Int) ≤ v ∧ v < 10 ^ (310 : Int) := by
  have hfraction := x.fraction_lt
  have hpos : (0 : ℚ) < 2 ^ x.scale := by positivity
  have hfields : -1074 ≤ x.scale ∧ x.scale ≤ 971 ∧ x.significand + 1 ≤ 9007199254740992 := by
    rcases fields_of_finite hfinite with ⟨-, hsig, hscale⟩ | ⟨hlow, hhigh, hsig, hscale⟩ <;> omega
  have hquarters : (2 : ℚ) ≤ x.lowQuarters := by
    have hnat : 2 ≤ x.lowQuarters := by
      unfold lowQuarters
      split <;> omega
    exact_mod_cast hnat
  -- Open or closed, the interval lies between its ends.
  have hends : x.lowQuarters / 4 * (2 : ℚ) ^ x.scale ≤ v ∧
      v ≤ (4 * x.significand + 2) / 4 * (2 : ℚ) ^ x.scale := by
    unfold RoundsTo at hround
    split at hround
    · exact hround
    · exact ⟨hround.1.le, hround.2.le⟩
  constructor
  · -- What rounds to a number other than zero is at least half a unit of the least scale.
    calc (10 : ℚ) ^ (-331 : Int) ≤ 2 ^ (-1075 : Int) := ten_pow_331_le
      _ = 2 / 4 * 2 ^ (-1074 : Int) := by
          rw [show (-1075 : Int) = -1074 - 1 by norm_num, zpow_sub_one₀ (by norm_num)]
          ring
      _ ≤ 2 / 4 * 2 ^ x.scale := by
          gcongr
          · norm_num
          · exact hfields.1
      _ ≤ x.lowQuarters / 4 * 2 ^ x.scale := by gcongr
      _ ≤ v := hends.1
  · have hsig : ((x.significand : ℚ) + 1) ≤ 2 ^ (53 : Int) := by
      rw [two_zpow_53]
      exact_mod_cast hfields.2.2
    calc v ≤ (4 * x.significand + 2) / 4 * 2 ^ x.scale := hends.2
      _ ≤ (x.significand + 1) * 2 ^ x.scale := by
          gcongr
          linarith
      _ ≤ 2 ^ (53 : Int) * 2 ^ (971 : Int) := by
          gcongr
          · norm_num
          · exact hfields.2.1
      _ = 2 ^ (1024 : Int) := by rw [← zpow_add₀ (by norm_num)]; norm_num
      _ < 10 ^ (310 : Int) := two_pow_1024_lt

/-- So the decimal point of such a number is not far from its digits. -/
theorem places_bounds (hfinite : x.isFinite = true) (hsignificand : x.significand ≠ 0)
    {d : Decimal} (hround : x.RoundsTo d.value) :
    d.digits ≠ 0 ∧ -330 ≤ (d.chars.length : Int) + d.exponent ∧
      (d.chars.length : Int) + d.exponent ≤ 310 := by
  obtain ⟨hlow, hhigh⟩ := roundsTo_bounds hfinite hsignificand hround
  have hdigits : d.digits ≠ 0 := by
    intro hzero
    have hpos : (0 : ℚ) < 10 ^ (-331 : Int) := by positivity
    simp only [Decimal.value, hzero, Nat.cast_zero, zero_mul] at hlow
    exact absurd hlow (not_le.mpr hpos)
  obtain ⟨hleast, hmost⟩ := toDigits_bounds hdigits
  have hten : (0 : ℚ) < 10 ^ d.exponent := by positivity
  refine ⟨hdigits, ?_, ?_⟩
  · have hlt : (10 : ℚ) ^ (-331 : Int) < 10 ^ ((d.chars.length : Int) + d.exponent) := by
      rw [zpow_add₀ (by norm_num)]
      exact lt_of_le_of_lt hlow (mul_lt_mul_of_pos_right hmost hten)
    have := (zpow_lt_zpow_iff_right₀ (by norm_num)).mp hlt
    omega
  · have hlt : (10 : ℚ) ^ ((d.chars.length : Int) - 1 + d.exponent) < 10 ^ (310 : Int) := by
      rw [zpow_add₀ (by norm_num)]
      exact lt_of_le_of_lt (mul_le_mul_of_nonneg_right hleast hten.le) hhigh
    have := (zpow_lt_zpow_iff_right₀ (by norm_num)).mp hlt
    omega

/-- A decimal number in the rounding interval of a finite number reads as it. -/
theorem ofDecimal_of_roundsTo (hfinite : x.isFinite = true) (hsignificand : x.significand ≠ 0)
    {digits : Nat} {exponent : Int} (hround : x.RoundsTo (⟨digits, exponent⟩ : Decimal).value) :
    ofDecimal x.negative digits exponent = x := by
  obtain ⟨hdigits, hlow, hhigh⟩ := places_bounds hfinite hsignificand hround
  have hratio : ((digits * power 10 exponent : Nat) : ℚ) / (power 10 (-exponent) : Nat) =
      (⟨digits, exponent⟩ : Decimal).value := by
    have hpower := power_div_power 10 (by norm_num) exponent
    push_cast at hpower ⊢
    rw [mul_div_assoc, hpower, Decimal.value]
  simp only [Decimal.chars] at hdigits hlow hhigh
  unfold ofDecimal
  extract_lets places
  rw [if_neg hdigits, if_neg (by omega), if_neg (by omega)]
  apply ofRatio_of_roundsTo hfinite hsignificand (power_pos (by norm_num) _).ne'
  rw [hratio]
  exact hround

theorem not_isNaN (hfinite : x.isFinite = true) : x.isNaN = false := by
  have hfield : x.exponentField ≠ 2047 := by simpa [isFinite] using hfinite
  simp [isNaN, hfield]

/-- Without a significand there is only the zero of the sign. -/
theorem eq_zero_of_significand (hfinite : x.isFinite = true) (hsignificand : x.significand = 0) :
    x = zero x.negative := by
  have hfields : x.exponentField = 0 ∧ x.fraction = 0 := by
    rcases fields_of_finite hfinite with ⟨hfield, hsig, -⟩ | ⟨-, -, hsig, -⟩ <;> omega
  calc x = assemble x.negative x.exponentField x.fraction := (assemble_fields x).symm
    _ = zero x.negative := by rw [hfields.1, hfields.2, zero]

/-- The JSON text of a finite number is a literal, behind the sign, of a decimal number with few
digits that reads as the number itself. -/
theorem exists_literal_jsonText (hfinite : x.isFinite = true) :
    ∃ literal : NumberLiteral, literal.IsReal ∧
      x.jsonText.toList = (if x.negative then ['-'] else []) ++ literal.chars ∧
      literal.decimal.digits ≤ 10 ^ 18 ∧
      ofDecimal x.negative literal.decimal.digits literal.decimal.exponent = x := by
  have hsign : (x.negative && NumberLayout.json.signedZero) = x.negative := Bool.and_true _
  unfold jsonText NumberLayout.write
  simp only [not_isNaN hfinite, hfinite, hsign, if_true, Bool.false_eq_true, if_false]
  by_cases hsignificand : x.significand = 0
  · obtain ⟨literal, hreal, hchars, hvalue, hmost⟩ :=
      NumberLiteral.exists_decimalChars ⟨0, 0⟩ (Nat.zero_le _) (fun _ => le_refl _) (by decide)
    have hpos : (10 : ℚ) ^ literal.decimal.exponent ≠ 0 := by positivity
    have hdigits : literal.decimal.digits = 0 := by simpa [Decimal.value, hpos] using hvalue
    refine ⟨literal, hreal, ?_, hmost, ?_⟩
    · rw [if_pos hsignificand, String.toList_ofList, hchars]
    · rw [hdigits]
      exact (eq_zero_of_significand hfinite hsignificand).symm
  · have hround := shortest_roundsTo hfinite hsignificand
    obtain ⟨hdigits, hlow, hhigh⟩ := places_bounds hfinite hsignificand hround
    obtain ⟨literal, hreal, hchars, hvalue, hmost⟩ :=
      NumberLiteral.exists_decimalChars x.shortest x.shortest_digits_le
        (fun hzero => absurd hzero hdigits) (by omega)
    refine ⟨literal, hreal, ?_, hmost, ofDecimal_of_roundsTo hfinite hsignificand (hvalue ▸ hround)⟩
    rw [if_neg hsignificand, String.toList_ofList, hchars]

/-- The text of a finite number is made of the characters of literals. -/
theorem isChar_jsonText (hfinite : x.isFinite = true) :
    ∀ c ∈ x.jsonText.toList, NumberLiteral.IsChar c := by
  obtain ⟨literal, hreal, hchars, -, -⟩ := exists_literal_jsonText hfinite
  rw [hchars]
  refine List.forall_mem_append.mpr ⟨?_, hreal.isChar⟩
  split <;> simp [NumberLiteral.IsChar]

theorem jsonText_mark (hfinite : x.isFinite = true) :
    '.' ∈ x.jsonText.toList ∨ 'e' ∈ x.jsonText.toList := by
  obtain ⟨literal, hreal, hchars, -, -⟩ := exists_literal_jsonText hfinite
  rw [hchars]
  exact hreal.mem_chars.imp (List.mem_append_right _) (List.mem_append_right _)

end Binary64

end ComicCatalog
