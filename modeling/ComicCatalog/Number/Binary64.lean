/-! # Numbers of a word

A word of 64 bits holds a whole number, with a sign or without one, or a binary
floating-point number. The latter is read as a sign, a whole significand and a
power of two, so that reading, writing and comparing are exact arithmetic on
whole numbers.
-/

/-! ## Whole numbers

The bounds are written out as numerals. -/

namespace ComicCatalog.Word

/-- The largest number without a sign. -/
def maxUnsigned : Nat := 18446744073709551615

/-- The least number with a sign. -/
def minSigned : Int := -9223372036854775808

/-- The largest number with a sign. -/
def maxSigned : Int := 9223372036854775807

/-- Whether a word with a sign holds a number. -/
def isSigned (n : Int) : Bool :=
  minSigned ≤ n && n ≤ maxSigned

theorem isSigned_iff {n : Int} :
    isSigned n = true ↔ -9223372036854775808 ≤ n ∧ n ≤ 9223372036854775807 := by
  rw [isSigned, Bool.and_eq_true, decide_eq_true_eq, decide_eq_true_eq]
  exact Iff.rfl

end ComicCatalog.Word

/-! ## Floating-point numbers -/

namespace ComicCatalog

/-- A binary floating-point number of 64 bits. -/
structure Binary64 where
  bits : UInt64
  deriving DecidableEq, Repr, Inhabited

namespace Binary64

/-- A power; one where the exponent is negative. -/
def power (base : Nat) (exponent : Int) : Nat :=
  Nat.pow base exponent.toNat

/-- The weight of the sign bit, `2 ^ 63`. -/
def signBit : Nat := 9223372036854775808

/-- The weight of the leading bit of a whole significand, `2 ^ 52`, which is not
among the fraction bits. -/
def leadingBit : Nat := 4503599627370496

/-- The sign bit. -/
def negative (x : Binary64) : Bool :=
  signBit ≤ x.bits.toNat

/-- The eleven exponent bits. -/
def exponentField (x : Binary64) : Nat :=
  x.bits.toNat / leadingBit % 2048

/-- The fraction bits. -/
def fraction (x : Binary64) : Nat :=
  x.bits.toNat % leadingBit

/-- Neither an infinity nor a NaN. -/
def isFinite (x : Binary64) : Bool :=
  x.exponentField != 2047

def isNaN (x : Binary64) : Bool :=
  x.exponentField == 2047 && x.fraction != 0

/-- The whole significand: the magnitude is `significand * 2 ^ scale`. -/
def significand (x : Binary64) : Nat :=
  if x.exponentField = 0 then x.fraction else x.fraction + leadingBit

/-- The power of two that the significand is scaled by. -/
def scale (x : Binary64) : Int :=
  (max x.exponentField 1 : Nat) - 1075

/-- The magnitude as a ratio of whole numbers. -/
def ratio (x : Binary64) : Nat × Nat :=
  (x.significand * power 2 x.scale, power 2 (-x.scale))

/-- Assemble a number from its sign, exponent bits and fraction bits. -/
def assemble (negative : Bool) (exponentField fraction : Nat) : Binary64 :=
  ⟨UInt64.ofNat ((if negative then signBit else 0) + exponentField * leadingBit + fraction)⟩

def infinity (negative : Bool) : Binary64 :=
  assemble negative 2047 0

def zero (negative : Bool) : Binary64 :=
  assemble negative 0 0

def nan (negative : Bool) : Binary64 :=
  assemble negative 2047 (leadingBit / 2)

/-- The quotient rounded to the nearest whole number, a half to the even one. -/
def roundDiv (num den : Nat) : Nat :=
  let quotient := num / den
  let double := 2 * (num % den)
  if double < den then quotient
  else if den < double then quotient + 1
  else if quotient % 2 = 0 then quotient else quotient + 1

/-- The number nearest to `num / den`, a half to the even significand, beyond
the largest finite number an infinity. -/
def ofRatio (negative : Bool) (num den : Nat) : Binary64 :=
  if num = 0 then zero negative
  else
    let guess : Int := (Nat.log2 num : Int) - Nat.log2 den - 53
    let quotientAt (scale : Int) : Nat :=
      num * power 2 (-scale) / (den * power 2 scale)
    let exact : Int := if quotientAt guess < 2 * leadingBit then guess else guess + 1
    let scale : Int := max exact (-1074)
    let rounded := roundDiv (num * power 2 (-scale)) (den * power 2 scale)
    let carried : Nat × Int :=
      if rounded = 2 * leadingBit then (leadingBit, scale + 1) else (rounded, scale)
    if carried.1 < leadingBit then assemble negative 0 carried.1
    else
      let exponentField := (carried.2 + 1075).toNat
      if 2047 ≤ exponentField then infinity negative
      else assemble negative exponentField (carried.1 - leadingBit)

/-- The number nearest to a whole number. -/
def ofInt (n : Int) : Binary64 :=
  ofRatio (n < 0) n.natAbs 1

/-- The number nearest to `digits * 10 ^ exponent`. Exponents far out of range
are decided without computing the power. -/
def ofDecimal (negative : Bool) (digits : Nat) (exponent : Int) : Binary64 :=
  let places : Int := (Nat.toDigits 10 digits).length
  if digits = 0 then zero negative
  else if 310 < places + exponent then infinity negative
  else if places + exponent < -330 then zero negative
  else ofRatio negative (digits * power 10 exponent) (power 10 (-exponent))

/-- The product of a finite number with a ratio, rounded. -/
def scaleBy (x : Binary64) (num den : Nat) : Binary64 :=
  ofRatio x.negative (x.ratio.1 * num) (x.ratio.2 * den)

/-- The signed numerator over the positive denominator of a finite number. -/
def signedRatio (x : Binary64) : Int × Nat :=
  (if x.negative then -(x.ratio.1 : Int) else x.ratio.1, x.ratio.2)

/-- Exact order between a whole number and a number that is not a NaN. -/
def compareInt (n : Int) (x : Binary64) : Ordering :=
  if x.isFinite then compare (n * x.signedRatio.2) x.signedRatio.1
  else if x.negative then .gt else .lt

/-- Exact order between two numbers, neither of them a NaN. -/
def order (x y : Binary64) : Ordering :=
  match x.isFinite, y.isFinite with
  | true, true => compare (x.signedRatio.1 * y.signedRatio.2) (y.signedRatio.1 * x.signedRatio.2)
  | true, false => if y.negative then .gt else .lt
  | false, true => if x.negative then .lt else .gt
  | false, false =>
      if x.negative = y.negative then .eq else if x.negative then .lt else .gt

/-- The whole number a finite number equals, if it equals one. -/
def whole? (x : Binary64) : Option Int :=
  if x.isFinite && x.signedRatio.1 % x.signedRatio.2 == 0 then
    some (x.signedRatio.1 / x.signedRatio.2)
  else none

end Binary64

end ComicCatalog
