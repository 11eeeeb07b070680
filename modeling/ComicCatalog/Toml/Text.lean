import ComicCatalog.Text.Basic

/-! # Blank space and texts in TOML

Spaces, line ends and comments, and the four kinds of quoted text. Line ends are
a line feed, or a carriage return followed by one; no other control character
than the tab may stand anywhere.
-/

namespace ComicCatalog.Toml

/-! ## Blank space -/

def isSpace (c : Char) : Bool :=
  c = ' ' || c = '\t'

def skipSpace (cs : List Char) : List Char :=
  cs.dropWhile isSpace

/-- What follows a line end. -/
def afterNewline? : List Char → Option (List Char)
  | '\n' :: rest => some rest
  | '\r' :: '\n' :: rest => some rest
  | _ => none

/-- Characters of comments and, between their quotes, of texts. -/
def isPlain (c : Char) : Bool :=
  c = '\t' || (32 ≤ c.toNat && c.toNat ≤ 126) || 128 ≤ c.toNat

/-- Skip a comment, up to the end of its line. -/
def skipComment : List Char → List Char
  | '#' :: rest => rest.dropWhile isPlain
  | cs => cs

/-- What follows the end of a line that holds nothing more than a comment. -/
def afterLine? (cs : List Char) : Option (List Char) :=
  match skipComment (skipSpace cs) with
  | [] => some []
  | rest => afterNewline? rest

/-- Skip blank space, comments and line ends, at most `fuel` lines of them. -/
def skipLines : Nat → List Char → List Char
  | 0, cs => skipSpace cs
  | fuel + 1, cs =>
      match afterNewline? (skipComment (skipSpace cs)) with
      | some rest => skipLines fuel rest
      | none => skipSpace cs

/-- Skip blank space, comments and line ends. -/
def skipGap (cs : List Char) : List Char :=
  skipLines cs.length cs

/-- Skip spaces and line ends, at most `fuel` lines of them. -/
def skipBlankLines : Nat → List Char → List Char
  | 0, cs => skipSpace cs
  | fuel + 1, cs =>
      match afterNewline? (skipSpace cs) with
      | some rest => skipBlankLines fuel rest
      | none => skipSpace cs

/-! ## Quoted texts -/

/-- The character with a code point of `count` hexadecimal digits. -/
def escapeCode? (count : Nat) (cs : List Char) : Option (Char × List Char) := do
  let digits := cs.take count
  let code ← Text.number? 16 digits
  if digits.length = count ∧ code.isValidChar then some (Char.ofNat code, cs.drop count)
  else none

/-- The character an escape stands for, after its backslash. -/
def escape? : List Char → Option (Char × List Char)
  | 'b' :: rest => some (Char.ofNat 8, rest)
  | 't' :: rest => some ('\t', rest)
  | 'n' :: rest => some ('\n', rest)
  | 'f' :: rest => some (Char.ofNat 12, rest)
  | 'r' :: rest => some ('\r', rest)
  | '"' :: rest => some ('"', rest)
  | '\\' :: rest => some ('\\', rest)
  | 'u' :: rest => escapeCode? 4 rest
  | 'U' :: rest => escapeCode? 8 rest
  | _ => none

/-- A text on one line up to its closing quote, newest first in `done`. Escapes
are read between double quotes only. -/
def lineChars? (quote : Char) (fuel : Nat) (done : List Char) (cs : List Char) :
    Option (String × List Char) :=
  match fuel, cs with
  | 0, _ => none
  | _ + 1, [] => none
  | fuel + 1, c :: rest =>
      if c = quote then some (String.ofList done.reverse, rest)
      else if c = '\\' ∧ quote = '"' then
        match escape? rest with
        | some (escaped, rest) => lineChars? quote fuel (escaped :: done) rest
        | none => none
      else if isPlain c then lineChars? quote fuel (c :: done) rest
      else none

/-- A text on one line, after its opening quote. -/
def lineText? (quote : Char) (cs : List Char) : Option (String × List Char) :=
  lineChars? quote (cs.length + 1) [] cs

/-- The count of quotes a text starts with. -/
def quoteCount (quote : Char) (cs : List Char) : Nat :=
  (cs.takeWhile (· == quote)).length

/-- A text over several lines up to its three closing quotes, newest first in
`done`. One or two more quotes before the closing ones belong to the text. A
line end is read as a line feed; a backslash at the end of a line takes away
the blank space up to the next text. -/
def blockChars? (quote : Char) (fuel : Nat) (done : List Char) (cs : List Char) :
    Option (String × List Char) :=
  match fuel with
  | 0 => none
  | fuel + 1 =>
      match afterNewline? cs, cs with
      | some rest, _ => blockChars? quote fuel ('\n' :: done) rest
      | none, [] => none
      | none, c :: rest =>
          if 3 ≤ quoteCount quote cs then
            let inner := min (quoteCount quote cs) 5 - 3
            some (String.ofList (List.replicate inner quote ++ done).reverse, cs.drop (inner + 3))
          else if c = '\\' ∧ quote = '"' then
            match afterNewline? (skipSpace rest), escape? rest with
            | some rest, _ => blockChars? quote fuel done (skipBlankLines rest.length rest)
            | none, some (escaped, rest) => blockChars? quote fuel (escaped :: done) rest
            | none, none => none
          else if isPlain c then blockChars? quote fuel (c :: done) rest
          else none

/-- A text over several lines, after its opening quotes. A line end at the very
start is left out. -/
def blockText? (quote : Char) (cs : List Char) : Option (String × List Char) :=
  let cs := (afterNewline? cs).getD cs
  blockChars? quote (cs.length + 1) [] cs

/-- A quoted text of any kind, after its first quote. -/
def quotedText? (quote : Char) (cs : List Char) : Option (String × List Char) :=
  if 2 ≤ quoteCount quote cs then blockText? quote (cs.drop 2)
  else lineText? quote cs

end ComicCatalog.Toml
