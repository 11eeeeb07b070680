import ComicCatalog.Toml.Text
import ComicCatalog.Toml.Scalar
import ComicCatalog.Toml.Node

/-! # Keys and values in TOML

A key is one or more names between dots. Values nest through arrays and inline
tables, to a bounded depth.
-/

namespace ComicCatalog.Toml

/-- The number of levels that values and dotted keys may nest, exclusive. -/
def depthLimit : Nat := 80

/-! ## Keys -/

/-- Characters of names without quotes. -/
def isBare (c : Char) : Bool :=
  c.isAlphanum || c = '_' || c = '-'

/-- One name of a key. -/
def name? : List Char → Option (String × List Char)
  | '"' :: rest => lineText? '"' rest
  | '\'' :: rest => lineText? '\'' rest
  | cs =>
      let bare := cs.takeWhile isBare
      if bare.isEmpty then none else some (String.ofList bare, cs.dropWhile isBare)

/-- The names of a key, newest first in `done`, with spaces around each. -/
def names? (fuel : Nat) (done : List String) (cs : List Char) :
    Option (List String × List Char) :=
  match fuel with
  | 0 => none
  | fuel + 1 => do
      let (name, rest) ← name? (skipSpace cs)
      match skipSpace rest with
      | '.' :: rest => names? fuel (name :: done) rest
      | rest => some (name :: done, rest)

/-- A key: the path to its table, and its last name. -/
structure Key where
  path : List String
  name : String

/-- A key with the spaces around it. -/
def key? (cs : List Char) : Option (Key × List Char) := do
  let (names, rest) ← names? (cs.length + 1) [] cs
  match names with
  | name :: path =>
      if names.length < depthLimit then some (⟨path.reverse, name⟩, rest) else none
  | [] => none

/-! ## Values -/

/-- A reader of one value. -/
abbrev ValueReader := List Char → Option (Tree × List Char)

/-- The items of an array after its bracket, newest first in `done`. A comma may
follow the last item. -/
def items? (read : ValueReader) (fuel : Nat) (done : List Tree) (cs : List Char) :
    Option (List Tree × List Char) :=
  match fuel with
  | 0 => none
  | fuel + 1 =>
      match skipGap cs with
      | ']' :: rest => some (done.reverse, rest)
      | cs => do
          let (item, rest) ← read cs
          match skipGap rest with
          | ',' :: rest => items? read fuel (item :: done) rest
          | ']' :: rest => some ((item :: done).reverse, rest)
          | _ => none

/-- A key and its value. -/
def pair? (read : ValueReader) (cs : List Char) : Option ((Key × Tree) × List Char) := do
  let (key, rest) ← key? cs
  let (value, rest) ← read (skipSpace (← after? '=' rest))
  some ((key, value), rest)

/-- The pairs of an inline table after its brace. -/
def pairs? (read : ValueReader) (fuel : Nat) (fields : Fields) (cs : List Char) :
    Option (Fields × List Char) :=
  match fuel with
  | 0 => none
  | fuel + 1 => do
      let ((key, value), rest) ← pair? read cs
      let fields ← fields.addValue? key.path key.name value
      match skipSpace rest with
      | ',' :: rest => pairs? read fuel fields rest
      | '\x7d' :: rest => some (fields, rest)
      | _ => none

/-- A value in which arrays and inline tables nest at most `levels` deep. -/
def value? (levels : Nat) (cs : List Char) : Option (Tree × List Char) :=
  match cs with
  | '"' :: rest => (quotedText? '"' rest).map fun (s, rest) => (.text s, rest)
  | '\'' :: rest => (quotedText? '\'' rest).map fun (s, rest) => (.text s, rest)
  | '[' :: rest =>
      match levels with
      | 0 => none
      | levels + 1 =>
          (items? (value? levels) (rest.length + 1) [] rest).map fun (items, rest) =>
            (.list items, rest)
  | '\x7b' :: rest =>
      match levels with
      | 0 => none
      | levels + 1 =>
          match skipSpace rest with
          | '\x7d' :: rest => some (.table [], rest)
          | rest =>
              (pairs? (value? levels) (rest.length + 1) [] rest).map fun (fields, rest) =>
                (.table (Fields.trees fields), rest)
  | 't' :: 'r' :: 'u' :: 'e' :: rest => some (.bool true, rest)
  | 'f' :: 'a' :: 'l' :: 's' :: 'e' :: rest => some (.bool false, rest)
  | cs => numeric? cs

end ComicCatalog.Toml
