/-! # Bytes and the texts they spell

Stored texts, bodies and query strings arrive as bytes. Reading them as UTF-8
never fails: every maximal piece that cannot be continued to a character is
read as one replacement character.
-/

namespace ComicCatalog

/-- A sequence of bytes. -/
abbrev Bytes := List UInt8

namespace Bytes

/-- The UTF-8 bytes of a text. -/
def ofText (s : String) : Bytes :=
  s.toUTF8.toList

/-- What a leading byte announces: the number of bytes to follow, the bounds of
the first of them, and the leading bits of the code point. -/
structure Lead where
  more : Nat
  low : Nat
  high : Nat
  bits : Nat

/-- The announcement of a leading byte above ASCII; none for bytes that start no
character. The bounds leave out overlong forms, surrogates and code points past
the last one. -/
def Lead.of? (byte : Nat) : Option Lead :=
  if 0xC2 ≤ byte ∧ byte ≤ 0xDF then some ⟨1, 0x80, 0xBF, byte - 0xC0⟩
  else if byte = 0xE0 then some ⟨2, 0xA0, 0xBF, 0⟩
  else if byte = 0xED then some ⟨2, 0x80, 0x9F, 0xD⟩
  else if 0xE1 ≤ byte ∧ byte ≤ 0xEF then some ⟨2, 0x80, 0xBF, byte - 0xE0⟩
  else if byte = 0xF0 then some ⟨3, 0x90, 0xBF, 0⟩
  else if byte = 0xF4 then some ⟨3, 0x80, 0x8F, 4⟩
  else if 0xF1 ≤ byte ∧ byte ≤ 0xF3 then some ⟨3, 0x80, 0xBF, byte - 0xF0⟩
  else none

/-- Read `more` continuation bytes, the first of them within `low` and `high`.
Gives the code point, if it is complete, and what is left to read. -/
def continuation (more low high bits : Nat) (bytes : Bytes) : Option Nat × Bytes :=
  match more, bytes with
  | 0, rest => (some bits, rest)
  | _ + 1, [] => (none, [])
  | more + 1, byte :: rest =>
      if low ≤ byte.toNat ∧ byte.toNat ≤ high then
        continuation more 0x80 0xBF (bits * 64 + (byte.toNat - 0x80)) rest
      else (none, byte :: rest)

theorem continuation_length (more low high bits : Nat) (bytes : Bytes) :
    (continuation more low high bits bytes).2.length ≤ bytes.length := by
  induction more generalizing low high bits bytes with
  | zero => simp [continuation]
  | succ more ih =>
      cases bytes with
      | nil => simp [continuation]
      | cons byte rest =>
          simp only [continuation]
          split
          · exact Nat.le_succ_of_le (ih _ _ _ _)
          · simp

/-- The replacement character. -/
def replacement : Char := Char.ofNat 0xFFFD

/-- The characters that bytes spell, with a replacement character for every
piece that spells none. -/
def chars : Bytes → List Char
  | [] => []
  | byte :: rest =>
      if byte.toNat < 0x80 then Char.ofNat byte.toNat :: chars rest
      else
        match Lead.of? byte.toNat with
        | none => replacement :: chars rest
        | some lead =>
            ((continuation lead.more lead.low lead.high lead.bits rest).1.elim replacement
                Char.ofNat) ::
              chars (continuation lead.more lead.low lead.high lead.bits rest).2
termination_by bytes => bytes.length
decreasing_by
  · simp
  · simp
  · exact Nat.lt_succ_of_le (continuation_length _ _ _ _ _)

/-- The text that bytes spell. -/
def text (bytes : Bytes) : String :=
  String.ofList (chars bytes)

/-- The text that bytes spell, when they are valid UTF-8. -/
def text? (bytes : Bytes) : Option String :=
  if ofText (text bytes) = bytes then some (text bytes) else none

/-- Order byte by byte, a proper beginning first. -/
def compare : Bytes → Bytes → Ordering
  | [], [] => .eq
  | [], _ :: _ => .lt
  | _ :: _, [] => .gt
  | a :: as, b :: bs => (Ord.compare a.toNat b.toNat).then (compare as bs)

end Bytes

end ComicCatalog
