/-! # Blanks and digits

Two notions of blank space meet in the catalog. Query texts are cut into terms
at ASCII blanks; values, parameters and identifiers are trimmed of every
character of the Unicode property `White_Space`. Digits are read to any base up
to sixteen.
-/

namespace ComicCatalog.Text

/-! ## Blanks -/

/-- The six ASCII blanks: tab to carriage return, and the space. -/
def isAsciiBlank (c : Char) : Bool :=
  (9 ≤ c.toNat && c.toNat ≤ 13) || c.toNat == 32

/-- The characters of the Unicode property `White_Space`. -/
def isBlank (c : Char) : Bool :=
  isAsciiBlank c || c.toNat == 0x85 || c.toNat == 0xA0 || c.toNat == 0x1680 ||
    (0x2000 ≤ c.toNat && c.toNat ≤ 0x200A) || c.toNat == 0x2028 || c.toNat == 0x2029 ||
    c.toNat == 0x202F || c.toNat == 0x205F || c.toNat == 0x3000

/-- Drop the characters of a class from both ends. -/
def strip (drop : Char → Bool) (cs : List Char) : List Char :=
  ((cs.dropWhile drop).reverse.dropWhile drop).reverse

/-- Drop blank characters from both ends. -/
def trim (s : String) : String :=
  String.ofList (strip isBlank s.toList)

/-- A text is blank when nothing is left after trimming. -/
def blank (s : String) : Bool :=
  s.toList.all isBlank

/-- Every ASCII blank is a blank. -/
theorem isBlank_of_isAsciiBlank {c : Char} (h : isAsciiBlank c = true) : isBlank c = true := by
  simp [isBlank, h]

/-! ## Digits -/

/-- The value of a hexadecimal digit. -/
def hexDigit? (c : Char) : Option Nat :=
  if '0' ≤ c ∧ c ≤ '9' then some (c.toNat - 48)
  else if 'a' ≤ c ∧ c ≤ 'f' then some (c.toNat - 87)
  else if 'A' ≤ c ∧ c ≤ 'F' then some (c.toNat - 55)
  else none

/-- The number that digits to a base make, most significant first. -/
def ofDigits (base : Nat) (digits : List Nat) : Nat :=
  digits.foldl (fun n digit => n * base + digit) 0

/-- The number to a base, up to sixteen, that characters spell. -/
def number? (base : Nat) (cs : List Char) : Option Nat :=
  (cs.mapM fun c => (hexDigit? c).filter (· < base)).map (ofDigits base)

/-- The value of ASCII decimal digits. -/
def digitsValue (digits : List Char) : Nat :=
  ofDigits 10 (digits.map fun c => c.toNat - 48)

end ComicCatalog.Text
