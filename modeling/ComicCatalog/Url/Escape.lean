import ComicCatalog.Text.Basic
import ComicCatalog.Text.Bytes

/-! # Percent escapes

Bytes that may not stand in a part of a web address are written as a percent
sign and two hexadecimal digits. Which characters may not stand depends on the
part; characters beyond ASCII never may.
-/

namespace ComicCatalog.Escape

/-- Controls and everything beyond ASCII. -/
def inAll (c : Char) : Bool :=
  c.toNat < 32 || 127 ≤ c.toNat

/-- Escaped in fragments: also the space, quotes, angle brackets and the grave
accent. -/
def inFragment (c : Char) : Bool :=
  inAll c || c = ' ' || c = '"' || c = '<' || c = '>' || c.toNat = 96

/-- Escaped in paths: also what ends a path, and braces. -/
def inPath (c : Char) : Bool :=
  inFragment c || c = '#' || c = '?' || c = '\x7b' || c = '\x7d'

/-- Escaped in queries. -/
def inQuery (c : Char) : Bool :=
  inAll c || c = ' ' || c = '"' || c = '#' || c = '<' || c = '>' || c = '\''

/-- Escaped in user names and passwords: also the marks that structure an
address. -/
def inUser (c : Char) : Bool :=
  inPath c || "/:;=@[\\]^|".toList.contains c

/-- A hexadecimal digit in upper case. -/
def upperDigit (n : Nat) : Char :=
  (Nat.digitChar n).toUpper

/-- The escape of one byte. -/
def byte (b : UInt8) : List Char :=
  ['%', upperDigit (b.toNat / 16), upperDigit (b.toNat % 16)]

/-- Escape the characters of a class, byte by byte. -/
def encode (escaped : Char → Bool) (cs : List Char) : String :=
  String.ofList (cs.flatMap fun c =>
    if escaped c then (Bytes.ofText (String.singleton c)).flatMap byte else [c])

/-- The bytes that a text with escapes spells. A percent sign without two digits
stands for itself. -/
def decode : List Char → Bytes
  | '%' :: high :: low :: rest =>
      match Text.hexDigit? high, Text.hexDigit? low with
      | some h, some l => UInt8.ofNat (h * 16 + l) :: decode rest
      | _, _ => UInt8.ofNat 37 :: decode (high :: low :: rest)
  | c :: rest => Bytes.ofText (String.singleton c) ++ decode rest
  | [] => []

end ComicCatalog.Escape
