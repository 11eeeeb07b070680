import ComicCatalog.Text.Basic

/-! # Query terms

A query is a sequence of terms between ASCII blanks. A term is one of

* a word, a colon and a quotation, as in `tag:"big cat"`;
* a quotation, as in `"big cat"`;
* any other run of characters without blanks.

A quotation holds at least one character and no quote, and may hold blanks. A
quote that opens no quotation is an ordinary character of a run.
-/

namespace ComicCatalog

/-- A term as it stands in the query, split at its first colon. -/
structure Term where
  /-- The text of the whole term. -/
  raw : String
  /-- What stands before the first colon; quotations have no key. -/
  key : Option String
  /-- What stands behind the first colon, or the whole term. -/
  value : String
  deriving DecidableEq, Repr, Inhabited

namespace Term

/-- ASCII letters, digits and the underscore. -/
def isWordChar (c : Char) : Bool :=
  c.isAlphanum || c = '_'

/-- A character of a run: anything but an ASCII blank. -/
def isRunChar (c : Char) : Bool :=
  !Text.isAsciiBlank c

/-- The rest of a quotation after its opening quote, closing quote included, and
what follows it. -/
def quotation? (cs : List Char) : Option (List Char × List Char) :=
  match cs.takeWhile (· != '"'), cs.dropWhile (· != '"') with
  | first :: body, '"' :: rest => some (first :: body ++ ['"'], rest)
  | _, _ => none

/-- A word, a colon and a quotation, and what follows them. -/
def keyedQuotation? (cs : List Char) : Option (List Char × List Char) :=
  match cs.takeWhile isWordChar, cs.dropWhile isWordChar with
  | first :: word, ':' :: '"' :: rest =>
      (quotation? rest).map fun found => (first :: word ++ ':' :: '"' :: found.1, found.2)
  | _, _ => none

/-- A quotation with its opening quote, and what follows it. -/
def bareQuotation? : List Char → Option (List Char × List Char)
  | '"' :: rest => (quotation? rest).map fun found => ('"' :: found.1, found.2)
  | _ => none

/-- The text of one term, and whether it is a bare quotation. -/
structure Lexeme where
  raw : List Char
  bare : Bool
  deriving DecidableEq, Repr

/-- The term that starts with `c`, and what follows it. -/
def lexeme (c : Char) (rest : List Char) : Lexeme × List Char :=
  match keyedQuotation? (c :: rest) with
  | some found => (⟨found.1, false⟩, found.2)
  | none =>
      match bareQuotation? (c :: rest) with
      | some found => (⟨found.1, true⟩, found.2)
      | none => (⟨c :: rest.takeWhile isRunChar, false⟩, rest.dropWhile isRunChar)

theorem length_dropWhile_le (drop : Char → Bool) (cs : List Char) :
    (cs.dropWhile drop).length ≤ cs.length := by
  induction cs with
  | nil => simp
  | cons c rest ih =>
      rw [List.dropWhile_cons]
      split
      · exact Nat.le_succ_of_le ih
      · exact Nat.le_refl _

/-- A quotation is read together with its closing quote. -/
theorem quotation?_length {cs : List Char} {found : List Char × List Char}
    (h : quotation? cs = some found) : found.2.length < cs.length := by
  unfold quotation? at h
  split at h
  next hdrop =>
    cases h
    have hle := length_dropWhile_le (· != '"') cs
    rw [hdrop] at hle
    exact Nat.lt_of_lt_of_le (Nat.lt_succ_self _) hle
  next => cases h

theorem keyedQuotation?_length {cs : List Char} {found : List Char × List Char}
    (h : keyedQuotation? cs = some found) : found.2.length < cs.length := by
  unfold keyedQuotation? at h
  split at h
  next hdrop =>
    obtain ⟨inner, hinner, rfl⟩ := Option.map_eq_some_iff.1 h
    have hle := length_dropWhile_le isWordChar cs
    rw [hdrop] at hle
    have hlt := quotation?_length hinner
    simp only [List.length_cons] at hle
    show inner.2.length < cs.length
    omega
  next => cases h

theorem bareQuotation?_length {cs : List Char} {found : List Char × List Char}
    (h : bareQuotation? cs = some found) : found.2.length < cs.length := by
  unfold bareQuotation? at h
  split at h
  next =>
    obtain ⟨inner, hinner, rfl⟩ := Option.map_eq_some_iff.1 h
    have hlt := quotation?_length hinner
    simp only [List.length_cons]
    exact Nat.lt_succ_of_lt hlt
  next => cases h

/-- Reading a term always makes progress. -/
theorem lexeme_length (c : Char) (rest : List Char) :
    (lexeme c rest).2.length ≤ rest.length := by
  unfold lexeme
  split
  next h => exact Nat.le_of_lt_succ (keyedQuotation?_length h)
  next =>
    split
    next h => exact Nat.le_of_lt_succ (bareQuotation?_length h)
    next => exact length_dropWhile_le _ _

/-- The terms of a query: skip blanks, read a term, go on behind it. -/
def lexemes (cs : List Char) : List Lexeme :=
  match _h : cs.dropWhile Text.isAsciiBlank with
  | [] => []
  | c :: rest => (lexeme c rest).1 :: lexemes (lexeme c rest).2
termination_by cs.length
decreasing_by
  have hle := length_dropWhile_le Text.isAsciiBlank cs
  rw [_h] at hle
  exact Nat.lt_of_le_of_lt (lexeme_length c rest) hle

/-- Split a term at its first colon. A bare quotation is never split. -/
def ofLexeme (lexeme : Lexeme) : Term :=
  let raw := String.ofList lexeme.raw
  if lexeme.bare then ⟨raw, none, raw⟩
  else
    match lexeme.raw.dropWhile (· != ':') with
    | [] => ⟨raw, none, raw⟩
    | _ :: value =>
        ⟨raw, some (String.ofList (lexeme.raw.takeWhile (· != ':'))), String.ofList value⟩

/-- The terms of a query text. -/
def scan (query : String) : List Term :=
  (lexemes query.toList).map ofLexeme

end Term

end ComicCatalog
