import ComicCatalog.Json.Value
import ComicCatalog.Number.Binary64
import ComicCatalog.Text.Basic

/-! # Reading JSON

A reader for JSON texts. A whole-number literal outside the 64-bit ranges, and
the literal `-0`, are read as floating-point numbers; which number a literal with
many digits makes is up to the reader. Nesting and length are bounded by the
length of the text, which serves as the fuel.
-/

namespace ComicCatalog.Json

/-- JSON's blank characters. -/
def isGap (c : Char) : Bool :=
  c = ' ' || c = '\t' || c = '\n' || c = '\r'

def skipGap (cs : List Char) : List Char :=
  cs.dropWhile isGap

/-- The number of four hexadecimal digits. -/
def hexQuad? : List Char → Option (Nat × List Char)
  | a :: b :: c :: d :: rest => do
      let a ← Text.hexDigit? a
      let b ← Text.hexDigit? b
      let c ← Text.hexDigit? c
      let d ← Text.hexDigit? d
      some (((a * 16 + b) * 16 + c) * 16 + d, rest)
  | _ => none

/-- The character an escape stands for, after its backslash. -/
def escape? : List Char → Option (Char × List Char)
  | '"' :: rest => some ('"', rest)
  | '\\' :: rest => some ('\\', rest)
  | '/' :: rest => some ('/', rest)
  | 'b' :: rest => some (Char.ofNat 8, rest)
  | 'f' :: rest => some (Char.ofNat 12, rest)
  | 'n' :: rest => some ('\n', rest)
  | 'r' :: rest => some ('\r', rest)
  | 't' :: rest => some ('\t', rest)
  | 'u' :: rest => do
      let (high, rest) ← hexQuad? rest
      if 0xD800 ≤ high ∧ high < 0xDC00 then
        match rest with
        | '\\' :: 'u' :: rest => do
            let (low, rest) ← hexQuad? rest
            if 0xDC00 ≤ low ∧ low < 0xE000 then
              some (Char.ofNat (0x10000 + (high - 0xD800) * 0x400 + (low - 0xDC00)), rest)
            else none
        | _ => none
      else if 0xDC00 ≤ high ∧ high < 0xE000 then none
      else some (Char.ofNat high, rest)
  | _ => none

/-- The characters of a text up to its closing quote, newest first in `done`. -/
def textChars? (fuel : Nat) (done : List Char) (cs : List Char) :
    Option (String × List Char) :=
  match fuel, cs with
  | 0, _ => none
  | _ + 1, [] => none
  | fuel + 1, c :: rest =>
      if c = '"' then some (String.ofList done.reverse, rest)
      else if c = '\\' then
        match escape? rest with
        | some (escaped, rest) => textChars? fuel (escaped :: done) rest
        | none => none
      else if c.toNat < 32 then none
      else textChars? fuel (c :: done) rest

/-! ## Floating-point literals -/

/-- How floating-point literals are read: from a sign, the digits before and behind
the point, and a power of ten. -/
abbrev RealReading := Bool → List Char → List Char → Int → Option Binary64

/-- Read a literal as the number nearest to it, which must be finite. -/
def nearest? : RealReading := fun negative whole behind power =>
  let x := Binary64.ofDecimal negative (Text.digitsValue (whole ++ behind)) (power - behind.length)
  if x.isFinite then some x else none

/-- Digits read so far: the ones kept, the power of ten they are scaled by, and
whether a digit has been left out. -/
structure Digits where
  kept : Nat
  exponent : Int
  full : Bool

/-- Keep digits before the point while they fit 64 bits; count the others. -/
def Digits.wholePart (digits : List Char) : Digits :=
  digits.foldl (fun state c =>
    let next := state.kept * 10 + (c.toNat - 48)
    if state.full || Word.maxUnsigned < next then ⟨state.kept, state.exponent + 1, true⟩
    else ⟨next, state.exponent, false⟩) ⟨0, 0, false⟩

/-- Keep digits behind the point while they fit 64 bits; drop the others. -/
def Digits.fractionPart (before : Digits) (digits : List Char) : Digits :=
  digits.foldl (fun state c =>
    let next := state.kept * 10 + (c.toNat - 48)
    if state.full || Word.maxUnsigned < next then ⟨state.kept, state.exponent, true⟩
    else ⟨next, state.exponent - 1, false⟩) ⟨before.kept, before.exponent, false⟩

/-- Scale by a power of ten: the kept digits and the power are rounded, and then
their product or quotient. Fails beyond the largest finite number. -/
def scaled? (negative : Bool) (kept : Nat) (exponent : Int) : Option Binary64 :=
  let start := Binary64.ofRatio negative kept 1
  let power (n : Nat) : Nat × Nat := (Binary64.ofDecimal false 1 n).ratio
  if kept = 0 then some start
  else if 308 < exponent then none
  else if 0 ≤ exponent then
    let p := power exponent.toNat
    let x := start.scaleBy p.1 p.2
    if x.isFinite then some x else none
  else if -308 ≤ exponent then
    let p := power exponent.natAbs
    some (start.scaleBy p.2 p.1)
  else if -616 ≤ exponent then
    let p := power 308
    let q := power (exponent.natAbs - 308)
    some ((start.scaleBy p.2 p.1).scaleBy q.2 q.1)
  else some (Binary64.zero negative)

/-- Read a literal by as many digits as fit 64 bits. The number may be one next to
the nearest. -/
def quick? : RealReading := fun negative whole behind power =>
  let digits := (Digits.wholePart whole).fractionPart behind
  scaled? negative digits.kept (digits.exponent + power)

/-! ## Numbers -/

/-- The digits behind a point, which must not be missing. -/
def fraction? : List Char → Option (List Char × List Char)
  | '.' :: rest =>
      let digits := rest.takeWhile Char.isDigit
      if digits.isEmpty then none else some (digits, rest.dropWhile Char.isDigit)
  | rest => some ([], rest)

/-- The exponent, if one is written. -/
def exponent? : List Char → Option (Option Int × List Char)
  | c :: rest =>
      if c = 'e' ∨ c = 'E' then
        let (negative, rest) :=
          match rest with
          | '-' :: rest => (true, rest)
          | '+' :: rest => (false, rest)
          | rest => (false, rest)
        let digits := rest.takeWhile Char.isDigit
        if digits.isEmpty then none
        else
          let value : Int := min (Text.digitsValue digits) 100000
          some (some (if negative then -value else value), rest.dropWhile Char.isDigit)
      else some (none, c :: rest)
  | [] => some (none, [])

/-- A number literal behind its sign. -/
def magnitude? (real? : RealReading) (negative : Bool) (cs : List Char) :
    Option (JsonNumber × List Char) := do
  let whole := cs.takeWhile Char.isDigit
  if whole.isEmpty ∨ (1 < whole.length ∧ whole.head? = some '0') then none
  else
    let (behind, cs) ← fraction? (cs.dropWhile Char.isDigit)
    let (power, cs) ← exponent? cs
    let value := Text.digitsValue whole
    let isWhole := behind.isEmpty && power.isNone &&
      (if negative then value != 0 && Word.isSigned (-(value : Int)) else value ≤ Word.maxUnsigned)
    if isWhole then some (.whole (if negative then -(value : Int) else value), cs)
    else
      let x ← real? negative whole behind (power.getD 0)
      some (.real x, cs)

/-- A number literal. -/
def number? (real? : RealReading) : List Char → Option (JsonNumber × List Char)
  | '-' :: rest => magnitude? real? true rest
  | cs => magnitude? real? false cs

/-! ## Values -/

mutual

/-- A value, and what follows it. -/
def value? (real? : RealReading) (fuel : Nat) (cs : List Char) : Option (Json × List Char) :=
  match fuel with
  | 0 => none
  | fuel + 1 =>
      match skipGap cs with
      | 'n' :: 'u' :: 'l' :: 'l' :: rest => some (.null, rest)
      | 't' :: 'r' :: 'u' :: 'e' :: rest => some (.bool true, rest)
      | 'f' :: 'a' :: 'l' :: 's' :: 'e' :: rest => some (.bool false, rest)
      | '"' :: rest => (textChars? (rest.length + 1) [] rest).map fun (s, rest) => (.text s, rest)
      | '[' :: rest =>
          match skipGap rest with
          | ']' :: rest => some (.array [], rest)
          | rest => (items? real? fuel [] rest).map fun (items, rest) => (.array items, rest)
      | '\x7b' :: rest =>
          match skipGap rest with
          | '\x7d' :: rest => some (.object [], rest)
          | rest => (fields? real? fuel [] rest).map fun (fields, rest) => (.object fields, rest)
      | rest => (number? real? rest).map fun (n, rest) => (.number n, rest)

/-- The items of an array after its bracket, newest first in `done`. -/
def items? (real? : RealReading) (fuel : Nat) (done : List Json) (cs : List Char) :
    Option (List Json × List Char) :=
  match fuel with
  | 0 => none
  | fuel + 1 =>
      match value? real? fuel cs with
      | none => none
      | some (item, rest) =>
          match skipGap rest with
          | ',' :: rest => items? real? fuel (item :: done) rest
          | ']' :: rest => some ((item :: done).reverse, rest)
          | _ => none

/-- The fields of an object after its brace. -/
def fields? (real? : RealReading) (fuel : Nat) (done : Record) (cs : List Char) :
    Option (Record × List Char) :=
  match fuel with
  | 0 => none
  | fuel + 1 =>
      match skipGap cs with
      | '"' :: rest =>
          match textChars? (rest.length + 1) [] rest with
          | none => none
          | some (name, rest) =>
              match skipGap rest with
              | ':' :: rest =>
                  match value? real? fuel rest with
                  | none => none
                  | some (value, rest) =>
                      match skipGap rest with
                      | ',' :: rest => fields? real? fuel (Record.set done name value) rest
                      | '\x7d' :: rest => some (Record.set done name value, rest)
                      | _ => none
              | _ => none
      | _ => none

end

/-- The value a whole text spells. -/
def read? (real? : RealReading) (s : String) : Option Json :=
  let cs := s.toList
  match value? real? (cs.length + 1) cs with
  | some (value, rest) => if (skipGap rest).isEmpty then some value else none
  | none => none

/-- The value a whole text spells, its numbers read quickly. -/
def parse? : String → Option Json :=
  read? quick?

end ComicCatalog.Json
