import ComicCatalog.Store.Cell

/-! # Patterns

A pattern is a text in which `%` stands for any characters and `_` for any one
character, unless a backslash stands before them. Pattern and text both end at
their first NUL, and the two noncharacters at the end of the basic plane are
read as replacement characters.
-/

namespace ComicCatalog

/-- One element of a pattern. -/
inductive PatternElement
  | anyRun
  | anyOne
  | literal (c : Char)
  deriving DecidableEq, Repr

namespace Pattern

/-- The longest pattern that is accepted, in bytes. -/
def maxBytes : Nat := 50000

/-- A character as patterns see it. -/
def unit (c : Char) : Char :=
  if c.toNat = 0xFFFE ∨ c.toNat = 0xFFFF then Bytes.replacement else c

/-- The characters that patterns see of a text. -/
def units (cs : List Char) : List Char :=
  (cs.takeWhile fun c => c.toNat != 0).map unit

/-- The elements of a pattern; none for a lone backslash at its end. -/
def elements? : List Char → Option (List PatternElement)
  | [] => some []
  | '%' :: rest => (elements? rest).map (.anyRun :: ·)
  | '_' :: rest => (elements? rest).map (.anyOne :: ·)
  | ['\\'] => none
  | '\\' :: c :: rest => (elements? rest).map (.literal c :: ·)
  | c :: rest => (elements? rest).map (.literal c :: ·)

/-- Whether a text, as patterns see it, has the form of a pattern. -/
def accepts (pattern : List PatternElement) (cs : List Char) : Bool :=
  match pattern, cs with
  | [], cs => cs.isEmpty
  | .anyRun :: rest, [] => accepts rest []
  | .anyRun :: rest, c :: cs => accepts rest (c :: cs) || accepts (.anyRun :: rest) cs
  | .anyOne :: rest, _ :: cs => accepts rest cs
  | .literal c :: rest, d :: cs => c == d && accepts rest cs
  | .anyOne :: _, [] => false
  | .literal _ :: _, [] => false
termination_by pattern.length + cs.length

end Pattern

end ComicCatalog
