import ComicCatalog.Number.Binary64
import ComicCatalog.Settings.Tree

/-! # Numbers, dates and times in TOML

Whole numbers fit 64 bits with sign. Digits may be parted by single
underscores. Dates and times are checked but not kept.
-/

namespace ComicCatalog.Toml

/-! ## Digits -/

/-- Digits of a class, single underscores between them left out. -/
def moreDigits? (isDigit : Char → Bool) : List Char → Option (List Char × List Char)
  | [] => some ([], [])
  | '_' :: c :: rest =>
      if isDigit c then
        (moreDigits? isDigit rest).map fun (digits, rest) => (c :: digits, rest)
      else none
  | c :: rest =>
      if isDigit c then
        (moreDigits? isDigit rest).map fun (digits, rest) => (c :: digits, rest)
      else some ([], c :: rest)

/-- One or more digits of a class. -/
def digits? (isDigit : Char → Bool) : List Char → Option (List Char × List Char)
  | c :: rest =>
      if isDigit c then
        (moreDigits? isDigit rest).map fun (digits, rest) => (c :: digits, rest)
      else none
  | [] => none

/-- A sign, if there is one; true for minus. -/
def sign : List Char → Bool × List Char
  | '-' :: rest => (true, rest)
  | '+' :: rest => (false, rest)
  | rest => (false, rest)

/-- Decimal digits without a leading zero. -/
def wholeDigits? : List Char → Option (List Char × List Char)
  | '0' :: rest => some (['0'], rest)
  | rest => digits? Char.isDigit rest

/-! ## Numbers -/

/-- A whole number within 64 bits with sign. -/
def word? (n : Int) : Option Tree :=
  if Word.isSigned n then some (.integer n) else none

/-- A whole number to a base other than ten, after its mark. -/
def based? (base : Nat) (cs : List Char) : Option (Tree × List Char) := do
  let isDigit := fun c => (Text.hexDigit? c).any (· < base)
  let (digits, rest) ← digits? isDigit cs
  let n ← Text.number? base digits
  let value ← word? n
  some (value, rest)

/-- A whole number. -/
def integer? : List Char → Option (Tree × List Char)
  | '0' :: 'x' :: rest => based? 16 rest
  | '0' :: 'o' :: rest => based? 8 rest
  | '0' :: 'b' :: rest => based? 2 rest
  | cs => do
      let (negative, cs) := sign cs
      let (digits, rest) ← wholeDigits? cs
      let n : Int := Text.digitsValue digits
      let value ← word? (if negative then -n else n)
      some (value, rest)

/-- The digits behind a point; none where there is no point. -/
def fraction? : List Char → Option (List Char × List Char)
  | '.' :: rest => digits? Char.isDigit rest
  | rest => some ([], rest)

/-- The exponent; zero where there is none. -/
def exponent? : List Char → Option (Int × List Char)
  | c :: rest =>
      if c = 'e' ∨ c = 'E' then do
        let (negative, rest) := sign rest
        let (digits, rest) ← digits? Char.isDigit rest
        let n : Int := Text.digitsValue digits
        some (if negative then -n else n, rest)
      else some (0, c :: rest)
  | [] => some (0, [])

/-- A number with a point or an exponent, not beyond the largest. -/
def decimal? (cs : List Char) : Option (Tree × List Char) := do
  let (negative, cs) := sign cs
  let (whole, cs) ← wholeDigits? cs
  let (behind, after) ← fraction? cs
  let (power, rest) ← exponent? after
  let x := Binary64.ofDecimal negative (Text.digitsValue (whole ++ behind))
    (power - behind.length)
  if rest.length < cs.length ∧ x ≠ Binary64.infinity false then some (.real x, rest) else none

/-- An infinity or no number at all. -/
def special? (cs : List Char) : Option (Tree × List Char) :=
  match sign cs with
  | (negative, 'i' :: 'n' :: 'f' :: rest) => some (.real (Binary64.infinity negative), rest)
  | (negative, 'n' :: 'a' :: 'n' :: rest) =>
      some (.real (Binary64.nan negative), rest)
  | _ => none

/-! ## Dates and times -/

/-- A number of `count` decimal digits between two bounds. -/
def bounded? (count low high : Nat) (cs : List Char) : Option (Nat × List Char) :=
  let digits := cs.take count
  let n := Text.digitsValue digits
  if digits.length = count ∧ digits.all Char.isDigit ∧ low ≤ n ∧ n ≤ high then
    some (n, cs.drop count)
  else none

/-- What follows a mark. -/
def after? (mark : Char) : List Char → Option (List Char)
  | c :: rest => if c = mark then some rest else none
  | [] => none

/-- The number of days of a month. -/
def monthLength (year month : Nat) : Nat :=
  if month = 2 then
    if year % 4 = 0 ∧ (year % 100 ≠ 0 ∨ year % 400 = 0) then 29 else 28
  else if month = 4 ∨ month = 6 ∨ month = 9 ∨ month = 11 then 30
  else 31

/-- What follows a date. -/
def afterDate? (cs : List Char) : Option (List Char) := do
  let (year, cs) ← bounded? 4 0 9999 cs
  let (month, cs) ← bounded? 2 1 12 (← after? '-' cs)
  let (_, cs) ← bounded? 2 1 (monthLength year month) (← after? '-' cs)
  some cs

/-- What follows a time of day; a leap second is admitted. -/
def afterTime? (cs : List Char) : Option (List Char) := do
  let (_, cs) ← bounded? 2 0 23 cs
  let (_, cs) ← bounded? 2 0 59 (← after? ':' cs)
  let (_, cs) ← bounded? 2 0 60 (← after? ':' cs)
  match cs with
  | '.' :: rest =>
      if (rest.head?.any Char.isDigit) then some (rest.dropWhile Char.isDigit) else none
  | cs => some cs

/-- What follows an offset from universal time. -/
def afterOffset? : List Char → Option (List Char)
  | c :: rest =>
      if c = 'Z' ∨ c = 'z' then some rest
      else if c = '+' ∨ c = '-' then do
        let (_, cs) ← bounded? 2 0 23 rest
        let (_, cs) ← bounded? 2 0 59 (← after? ':' cs)
        some cs
      else none
  | [] => none

/-- What follows a time of day behind a date, with its offset if it has one. -/
def afterClock? : List Char → Option (List Char)
  | c :: rest =>
      if c = 'T' ∨ c = 't' ∨ c = ' ' then
        (afterTime? rest).map fun cs => (afterOffset? cs).getD cs
      else none
  | [] => none

/-- A date, a time of day, or both. -/
def moment? (cs : List Char) : Option (Tree × List Char) :=
  match afterDate? cs with
  | some rest => some (.moment, (afterClock? rest).getD rest)
  | none => (afterTime? cs).map fun rest => (.moment, rest)

/-- A value that starts with a sign or a digit. -/
def numeric? (cs : List Char) : Option (Tree × List Char) :=
  moment? cs <|> decimal? cs <|> special? cs <|> integer? cs

end ComicCatalog.Toml
