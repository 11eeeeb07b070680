import ComicCatalog.Number.Binary64

/-! # Decimal digits of a number

Two ways to write a binary number in decimal: the fewest digits that read back
as the same number, and a fixed count of significant digits. Both work with
exact ratios.
-/

namespace ComicCatalog

/-- A positive decimal number `digits * 10 ^ exponent`. -/
structure Decimal where
  digits : Nat
  exponent : Int
  deriving DecidableEq, Repr, Inhabited

namespace Decimal

/-- The digits as characters. -/
def chars (d : Decimal) : List Char :=
  Nat.toDigits 10 d.digits

/-- Move trailing zeros of the digits into the exponent. -/
def normalize (digits : Nat) (exponent : Int) (fuel : Nat) : Decimal :=
  match fuel with
  | 0 => ⟨digits, exponent⟩
  | fuel + 1 =>
      if digits ≠ 0 ∧ digits % 10 = 0 then normalize (digits / 10) (exponent + 1) fuel
      else ⟨digits, exponent⟩

end Decimal

namespace Binary64

/-- The exponent of the leading decimal digit of a positive ratio. -/
def leadingExponent (num den : Nat) : Int :=
  if den ≤ num then (Nat.toDigits 10 (num / den)).length - 1
  else
    let places := (Nat.toDigits 10 (den / num)).length - 1
    if num * power 10 places = den then -(places : Int) else -(places : Int) - 1

/-- The closed or open interval of ratios that round to a positive number: its
ends over a common denominator, and whether the ends belong to it. -/
structure Interval where
  low : Nat
  middle : Nat
  high : Nat
  den : Nat
  closed : Bool

/-- The interval around the magnitude of a finite number. Below a power of two
the neighbours are half as far away. -/
def interval (x : Binary64) : Interval :=
  let scaled (quarters : Nat) : Nat := quarters * power 2 x.scale
  { low := scaled
      (if x.fraction = 0 ∧ 1 < x.exponentField then 4 * x.significand - 1
        else 4 * x.significand - 2)
    middle := scaled (4 * x.significand)
    high := scaled (4 * x.significand + 2)
    den := 4 * power 2 (-x.scale)
    closed := x.significand % 2 = 0 }

/-- Whether `digits * 10 ^ exponent` rounds to the number the interval is
around. -/
def Interval.holds (i : Interval) (digits : Nat) (exponent : Int) : Bool :=
  let value := digits * power 10 exponent * i.den
  let unit := power 10 (-exponent)
  if i.closed then i.low * unit ≤ value && value ≤ i.high * unit
  else i.low * unit < value && value < i.high * unit

/-- The grid point with `count` digits nearest to the number that reads back as
it: of the two neighbours on the grid the one that holds, of two the nearer. -/
def onGrid? (i : Interval) (lead : Int) (count : Nat) : Option Decimal :=
  let exponent := lead - count + 1
  let num := i.middle * power 10 (-exponent)
  let den := i.den * power 10 exponent
  let below := num / den
  let nearer := if 2 * (num % den) < den ∨ (2 * (num % den) = den ∧ below % 2 = 0) then below
    else below + 1
  let farther := if nearer = below then below + 1 else below
  if i.holds nearer exponent then some (Decimal.normalize nearer exponent 20)
  else if i.holds farther exponent then some (Decimal.normalize farther exponent 20)
  else none

/-- The decimal number with the fewest digits that reads back as the magnitude
of a finite number, and of those the nearest. Seventeen digits always do. -/
def shortest (x : Binary64) : Decimal :=
  if x.significand = 0 then ⟨0, 0⟩
  else
    let i := x.interval
    let lead := leadingExponent i.middle i.den
    match (List.range 17).findSome? fun n => onGrid? i lead (n + 1) with
    | some d => d
    | none => ⟨0, 0⟩

/-- The magnitude rounded to `count` significant digits, a half upward, without
trailing zeros. -/
def significant (x : Binary64) (count : Nat) : Decimal :=
  if x.significand = 0 then ⟨0, 0⟩
  else
    let lead := leadingExponent x.ratio.1 x.ratio.2
    let exponent := lead - count + 1
    let num := x.ratio.1 * power 10 (-exponent)
    let den := x.ratio.2 * power 10 exponent
    Decimal.normalize ((2 * num + den) / (2 * den)) exponent (count + 1)

end Binary64

end ComicCatalog
