import ComicCatalog.Text.Basic
import ComicCatalog.Text.Fold
import ComicCatalog.Toml.Scalar
import ComicCatalog.Toml.Text

/-! # Settings in environment variables

A variable names a setting by its path, with two underscores between the names.
Its text is read as a value of the kind it looks like: a truth value, a number,
a list in brackets, a table in braces, a quoted text; anything else is a text as
it stands.
-/

namespace ComicCatalog.Variables

/-- What the names of settings variables start with, in any case. -/
def mark : List Char := "mangashelf_".toList

/-! ## Names -/

/-- The text with every pair of underscores, from the left, replaced by a dot. -/
def dotted : List Char → List Char
  | '_' :: '_' :: rest => '.' :: dotted rest
  | c :: rest => c :: dotted rest
  | [] => []

/-- The path of the setting that a variable names, if it names one: no name on
the path may be empty. -/
def path? (name : String) : Option (List String) :=
  let name := (Text.asciiFold name).toList
  if mark.isPrefixOf name then
    let names := (dotted (name.drop mark.length)).splitOn '.'
    if names.any List.isEmpty then none else some (names.map String.ofList)
  else none

/-! ## Values -/

/-- Blank space around values: ASCII blanks other than the vertical tab. -/
def isGap (c : Char) : Bool :=
  Text.isAsciiBlank c && c.toNat != 11

def skipGap (cs : List Char) : List Char :=
  cs.dropWhile isGap

/-- Characters that end a value without quotes. -/
def isDelimiter (c : Char) : Bool :=
  c = ',' || c = '\x7b' || c = '\x7d' || c = '[' || c = ']'

/-- The number that decimal digits with or without a sign make; true for minus. -/
def signed? (cs : List Char) : Option (Bool × Nat) :=
  let (negative, digits) := Toml.sign cs
  if digits.isEmpty || !digits.all Char.isDigit then none
  else some (negative, Text.digitsValue digits)

/-- A whole number within 64 bits, with or without sign. -/
def whole? (cs : List Char) : Option Int :=
  match signed? cs with
  | some (true, n) => if Word.isSigned (-(n : Int)) then some (-(n : Int)) else none
  | some (false, n) => if n ≤ Word.maxUnsigned then some n else none
  | none => none

/-- A number with a point: digits on at least one side of it, and perhaps an
exponent. -/
def real? (cs : List Char) : Option Binary64 := do
  let (negative, cs) := Toml.sign cs
  let whole := cs.takeWhile Char.isDigit
  match cs.dropWhile Char.isDigit with
  | '.' :: rest => do
      let behind := rest.takeWhile Char.isDigit
      if whole.isEmpty ∧ behind.isEmpty then none
      let power : Int ←
        match rest.dropWhile Char.isDigit with
        | [] => some 0
        | c :: rest =>
            if c = 'e' ∨ c = 'E' then
              (signed? rest).map fun (below, n) => if below then -(n : Int) else n
            else none
      some (Binary64.ofDecimal negative (Text.digitsValue (whole ++ behind))
        (power - behind.length))
  | _ => none

/-- A value without quotes. -/
def bare (cs : List Char) : Tree :=
  let cs := Text.strip Text.isBlank cs
  match real? cs, whole? cs with
  | some x, _ => .real x
  | none, some n => .integer n
  | none, none => .text (String.ofList cs)

/-- The key of a pair. -/
def key? : List Char → Option (String × List Char)
  | '"' :: rest => Toml.lineText? '"' rest
  | cs =>
      let isBare := fun (c : Char) => c.isAlphanum || c = '_' || c = '-'
      let bare := cs.takeWhile isBare
      if bare.isEmpty then none else some (String.ofList bare, cs.dropWhile isBare)

mutual

/-- A value with the blank space around it. -/
def value? (fuel : Nat) (cs : List Char) : Option (Tree × List Char) :=
  match fuel with
  | 0 => none
  | fuel + 1 => do
      let (value, rest) ←
        match skipGap cs with
        | 't' :: 'r' :: 'u' :: 'e' :: rest => some (.bool true, rest)
        | 'f' :: 'a' :: 'l' :: 's' :: 'e' :: rest => some (.bool false, rest)
        | '\x7b' :: rest => (pairs? fuel [] rest).map fun (fields, rest) => (.table fields, rest)
        | '[' :: rest => (items? fuel [] rest).map fun (items, rest) => (.list items, rest)
        | '"' :: rest => (Toml.lineText? '"' rest).map fun (s, rest) => (.text s, rest)
        | '\'' :: rest =>
            match rest with
            | c :: '\'' :: rest => some (.text (String.singleton c), rest)
            | _ => none
        | cs =>
            some (bare (cs.takeWhile (!isDelimiter ·)), cs.dropWhile (!isDelimiter ·))
      some (value, skipGap rest)

/-- The items of a list after its bracket, newest first in `done`. -/
def items? (fuel : Nat) (done : List Tree) (cs : List Char) : Option (List Tree × List Char) :=
  match fuel with
  | 0 => none
  | fuel + 1 =>
      match cs with
      | ']' :: rest => some (done.reverse, rest)
      | cs => do
          let (item, rest) ← value? fuel cs
          match rest with
          | ',' :: rest => items? fuel (item :: done) rest
          | ']' :: rest => some ((item :: done).reverse, rest)
          | _ => none

/-- The pairs of a table after its brace. -/
def pairs? (fuel : Nat) (done : List (String × Tree)) (cs : List Char) :
    Option (List (String × Tree) × List Char) :=
  match fuel with
  | 0 => none
  | fuel + 1 =>
      match cs with
      | '\x7d' :: rest => some (done, rest)
      | cs => do
          let (name, rest) ← key? (skipGap cs)
          match skipGap rest with
          | '=' :: rest => do
              let (value, rest) ← value? fuel rest
              let done := Tree.setField done name value
              match rest with
              | ',' :: rest => pairs? fuel done rest
              | '\x7d' :: rest => some (done, rest)
              | _ => none
          | _ => none

end

/-- The value of a variable's text; the whole text where it spells no value. -/
def value (s : String) : Tree :=
  let cs := s.toList
  match value? (2 * cs.length + 2) cs with
  | some (value, []) => value
  | _ => .text s

/-- Order variables by name. -/
def sorted (environment : List (String × String)) : List (String × String) :=
  environment.mergeSort fun a b => decide (a.1 ≤ b.1)

/-- The layer of settings that variables make. -/
def layer (environment : List (String × String)) : Tree :=
  .table ((sorted environment).foldl (fun fields (name, s) =>
    match path? name with
    | some (first :: rest) => Tree.mergeFields fields [(first, Tree.atPath (value s) rest)]
    | _ => fields) [])

end ComicCatalog.Variables
