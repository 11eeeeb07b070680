import ComicCatalog.Number.Shortest

/-! # Written numbers

One record describes how a decimal number is laid out; the catalog uses three:
JSON text, the text a database keeps for a number, and plain digits.
-/

namespace ComicCatalog

/-- How a decimal number is laid out. -/
structure NumberLayout where
  /-- Positional notation is used while the leading digit's exponent lies within
  these bounds; `none` means always. -/
  positional : Option (Int × Int)
  /-- A whole number keeps `.0`. -/
  pointZero : Bool
  /-- A single digit before an exponent keeps `.0`. -/
  pointZeroBeforeExponent : Bool
  /-- The least count of exponent digits. -/
  exponentDigits : Nat
  /-- A positive exponent has a plus sign. -/
  exponentPlus : Bool
  /-- Zero keeps its sign. -/
  signedZero : Bool
  /-- The text of an infinity, without sign. -/
  infinity : String

namespace NumberLayout

/-- JSON text: positional from 1e-5 to below 1e16. -/
def json : NumberLayout where
  positional := some (-5, 15)
  pointZero := true
  pointZeroBeforeExponent := false
  exponentDigits := 1
  exponentPlus := true
  signedZero := true
  infinity := "null"

/-- The text a database keeps: positional from 1e-4 to below 1e15. -/
def database : NumberLayout where
  positional := some (-4, 14)
  pointZero := true
  pointZeroBeforeExponent := true
  exponentDigits := 2
  exponentPlus := true
  signedZero := false
  infinity := "Inf"

/-- Plain digits, never an exponent. -/
def plain : NumberLayout where
  positional := none
  pointZero := false
  pointZeroBeforeExponent := false
  exponentDigits := 1
  exponentPlus := false
  signedZero := true
  infinity := "inf"

/-- Digits with a point, or zeros, where the exponent asks for them. -/
def positionalChars (layout : NumberLayout) (d : Decimal) : List Char :=
  let count : Int := d.chars.length
  if 0 ≤ d.exponent then
    d.chars ++ List.replicate d.exponent.toNat '0' ++
      (if layout.pointZero then ['.', '0'] else [])
  else if 0 < count + d.exponent then
    d.chars.take (count + d.exponent).toNat ++ '.' :: d.chars.drop (count + d.exponent).toNat
  else
    '0' :: '.' :: (List.replicate (-(count + d.exponent)).toNat '0' ++ d.chars)

/-- One digit before the point, the rest behind it, and the exponent. -/
def exponentChars (layout : NumberLayout) (d : Decimal) (lead : Int) : List Char :=
  let mantissa :=
    match d.chars with
    | [] => []
    | [digit] => if layout.pointZeroBeforeExponent then [digit, '.', '0'] else [digit]
    | digit :: rest => digit :: '.' :: rest
  let digits := Nat.toDigits 10 lead.natAbs
  mantissa ++ 'e' ::
    ((if lead < 0 then ['-'] else if layout.exponentPlus then ['+'] else []) ++
      List.replicate (layout.exponentDigits - digits.length) '0' ++ digits)

/-- A nonnegative decimal number. -/
def decimalChars (layout : NumberLayout) (d : Decimal) : List Char :=
  let lead : Int := d.chars.length - 1 + d.exponent
  match layout.positional with
  | none => layout.positionalChars d
  | some (low, high) =>
      if low ≤ lead ∧ lead ≤ high then layout.positionalChars d
      else layout.exponentChars d lead

/-- A number whose magnitude has the given decimal digits. -/
def write (layout : NumberLayout) (digits : Binary64 → Decimal) (x : Binary64) : String :=
  if x.isNaN then "NaN"
  else if x.isFinite then
    if x.significand = 0 then
      String.ofList ((if x.negative && layout.signedZero then ['-'] else []) ++
        layout.decimalChars ⟨0, 0⟩)
    else
      String.ofList ((if x.negative then ['-'] else []) ++ layout.decimalChars (digits x))
  else (if x.negative then "-" else "") ++ layout.infinity

end NumberLayout

namespace Binary64

/-- The JSON text of a finite number. -/
def jsonText (x : Binary64) : String :=
  NumberLayout.json.write shortest x

/-- The text a database column keeps for a number: fifteen digits. -/
def databaseText (x : Binary64) : String :=
  NumberLayout.database.write (fun y => y.significant 15) x

/-- The number in plain digits. -/
def plainText (x : Binary64) : String :=
  NumberLayout.plain.write shortest x

end Binary64

end ComicCatalog
