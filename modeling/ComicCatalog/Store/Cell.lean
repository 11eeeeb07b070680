import ComicCatalog.Json.Reader
import ComicCatalog.Text.Basic
import ComicCatalog.Text.Bytes
import ComicCatalog.Text.Fold

/-! # Cells

What a table holds in a column: nothing, a whole number, a floating-point
number, a text or a blob. A text is held as its bytes, which need not be valid
UTF-8. A column has an affinity, which converts values on their way in and
texts that are compared with it.
-/

namespace ComicCatalog

/-- A stored value. -/
inductive Cell
  | null
  | integer (n : Int)
  | real (x : Binary64)
  | text (bytes : Bytes)
  | blob (bytes : Bytes)
  deriving DecidableEq, Repr, Inhabited

/-- What a column makes of the values it is given. -/
inductive Affinity
  | integer
  | text
  deriving DecidableEq, Repr, Inhabited

namespace Cell

def ofText (s : String) : Cell :=
  .text (Bytes.ofText s)

/-- A significand this large takes no more digits. -/
def fullSignificand : Nat := 1844674407370955160

/-- Read one more digit into a significand. Behind a full one a digit only counts as a place. -/
def addDigit (d : Decimal) (c : Char) : Decimal :=
  if d.digits < fullSignificand then ⟨d.digits * 10 + (c.toNat - 48), d.exponent⟩
  else ⟨d.digits, d.exponent + 1⟩

/-- The digits of a number, as far as its significand takes them. -/
def leadingDigits (digits : List Char) : Decimal :=
  digits.foldl addDigit ⟨0, 0⟩

/-- The floating-point number of digits and a power of ten. -/
def realOf (negative : Bool) (digits : List Char) (exponent : Int) : Binary64 :=
  let leading := leadingDigits digits
  Binary64.ofDecimal negative leading.digits (leading.exponent + exponent)

/-- A number literal behind its sign: digits with an optional point among them, and an
optional exponent. Without point and exponent it is a whole number where that fits. -/
def magnitudeLiteral? (negative : Bool) (cs : List Char) : Option Cell :=
  let whole := cs.takeWhile Char.isDigit
  let cs := cs.dropWhile Char.isDigit
  let (pointed, behind, cs) :=
    match cs with
    | '.' :: rest => (true, rest.takeWhile Char.isDigit, rest.dropWhile Char.isDigit)
    | cs => (false, [], cs)
  if whole.isEmpty && behind.isEmpty then none
  else
    match Json.exponent? cs with
    | some (power, []) =>
        let value : Int := (if negative then -1 else 1) * (Text.digitsValue whole : Int)
        if !pointed && power.isNone && Word.isSigned value then some (.integer value)
        else
          some (.real (realOf negative (whole ++ behind) (power.getD 0 - behind.length)))
    | _ => none

/-- A number literal without blanks around it. -/
def literal? : List Char → Option Cell
  | '-' :: rest => magnitudeLiteral? true rest
  | '+' :: rest => magnitudeLiteral? false rest
  | cs => magnitudeLiteral? false cs

/-- The number a text spells, ASCII blanks around it allowed. -/
def number? (bytes : Bytes) : Option Cell :=
  literal? (Text.strip Text.isAsciiBlank (bytes.map fun byte => Char.ofNat byte.toNat))

/-- A floating-point number that equals a whole number strictly within 64 bits
becomes that whole number. -/
def settle : Cell → Cell
  | .real x =>
      match x.whole? with
      | some n => if Word.minSigned < n ∧ n < Word.maxSigned then .integer n else .real x
      | none => .real x
  | cell => cell

/-- The value a column stores when it is given this one. -/
def stored (affinity : Affinity) (cell : Cell) : Cell :=
  match affinity, cell with
  | .integer, .text bytes =>
      match number? bytes with
      | some number => number.settle
      | none => .text bytes
  | .integer, .real x => (Cell.real x).settle
  | .text, .integer n => ofText (toString n)
  | .text, .real x => ofText x.databaseText
  | _, cell => cell

/-- The value that a text stands for when it is compared with a column. -/
def operand (affinity : Affinity) (s : String) : Cell :=
  match affinity with
  | .integer => (number? (Bytes.ofText s)).getD (ofText s)
  | .text => ofText s

/-- The row number that a text stands for when it is compared with row numbers.
These are looked up rather than compared, and only with whole numbers. -/
def rowNumber? (s : String) : Option Int :=
  match (operand .integer s).settle with
  | .integer n => some n
  | _ => none

/-- The rank of the kinds of values in an ordering. -/
def rank : Cell → Nat
  | .null => 0
  | .integer _ => 1
  | .real _ => 1
  | .text _ => 2
  | .blob _ => 3

/-- Nothing before numbers, numbers before texts, texts before blobs; numbers by
value, texts and blobs byte by byte. -/
def order (a b : Cell) : Ordering :=
  match a, b with
  | .integer m, .integer n => compare m n
  | .integer m, .real y => Binary64.compareInt m y
  | .real x, .integer n => (Binary64.compareInt n x).swap
  | .real x, .real y => Binary64.order x y
  | .text s, .text t => Bytes.compare s t
  | .blob s, .blob t => Bytes.compare s t
  | a, b => compare a.rank b.rank

/-- Whether two values are equal to the database. Nothing equals nothing. -/
def equals (a b : Cell) : Bool :=
  a != .null && b != .null && a.order b == .eq

/-- The lowercase text of a value: numbers by their digits; nothing and blobs have
none. -/
def folded? : Cell → Option String
  | .text bytes => some (Text.fold (Bytes.text bytes))
  | .integer n => some (toString n)
  | .real x => some x.plainText
  | .null => none
  | .blob _ => none

/-- The value as the catalog shows it. Blobs and infinities show as nothing. -/
def toJson : Cell → Json
  | .null => .null
  | .integer n => .ofInt n
  | .real x => if x.isFinite then .number (.real x) else .null
  | .text bytes => .text (Bytes.text bytes)
  | .blob _ => .null

end Cell

end ComicCatalog
