import ComicCatalog.Net.Address
import ComicCatalog.Text.Fold
import ComicCatalog.Url.Escape

/-! # Hosts of web addresses

A host is a name or an address. Names in ASCII are lowered; which other names there
are, and how they are told in ASCII, is left open. A name whose last label is a number
is an address of the first family, in one of its many spellings.
-/

namespace ComicCatalog

/-- Why a text is no web address. -/
inductive UrlError
  | relative
  | emptyHost
  | domainName
  | domainCharacter
  | port
  | octets
  | groups
  deriving DecidableEq, Repr

def UrlError.message : UrlError → String
  | .relative => "relative URL without a base"
  | .emptyHost => "empty host"
  | .domainName => "invalid international domain name"
  | .domainCharacter => "invalid domain character"
  | .port => "invalid port number"
  | .octets => "invalid IPv4 address"
  | .groups => "invalid IPv6 address"

/-- How a name beyond plain ASCII is told in ASCII. A name that cannot be told so is none. -/
class HostNames where
  toAscii? : List Char → Option (List Char)

/-- The host of a web address. -/
inductive Host
  | domain (name : String)
  | address (address : Address)
  deriving DecidableEq, Repr, Inhabited

namespace Host

/-- The text of a host; an address of the second family stands in brackets and
never shows octets. -/
def text : Host → String
  | .domain name => name
  | .address (.v4 bits) => (Address.v4 bits).text
  | .address (.v6 bits) =>
      "[" ++ Address.compressed (Address.pieces 65536 8 bits.toNat) ++ "]"

/-! ## Names -/

/-- ASCII characters that no name may hold. -/
def isDenied (c : Char) : Bool :=
  c.toNat ≤ 32 || c.toNat = 127 || "%#/:<>?@[\\]^|".toList.contains c

/-- What marks a label that spells letters beyond ASCII. -/
def labelMark : List Char := "xn--".toList

/-- Whether a name is its own name in ASCII, but for its case. -/
def isPlain (cs : List Char) : Bool :=
  cs.all (·.toNat < 128) &&
    (cs.splitOn '.').all fun label => !labelMark.isPrefixOf (label.map Char.toLower)

/-- A name in ASCII. -/
def name? [HostNames] (cs : List Char) : Option (List Char) :=
  if isPlain cs then
    if cs.any isDenied then none else some (cs.map Char.toLower)
  else HostNames.toAscii? cs

/-! ## Numbers -/

/-- A number in a host: hexadecimal behind `0x`, octal behind `0`, otherwise
decimal. Nothing behind the mark is zero. -/
def number? : List Char → Option Nat
  | [] => none
  | '0' :: 'x' :: rest => if rest.isEmpty then some 0 else Text.number? 16 rest
  | '0' :: 'X' :: rest => if rest.isEmpty then some 0 else Text.number? 16 rest
  | '0' :: c :: rest => Text.number? 8 (c :: rest)
  | cs => Text.number? 10 cs

/-- The labels of a name, without the empty one behind a final point. -/
def labels (name : List Char) : List (List Char) :=
  let labels := name.splitOn '.'
  if labels.getLast? = some [] then labels.dropLast else labels

/-- Whether the last label of a name is a number. -/
def endsInNumber (name : List Char) : Bool :=
  match (labels name).getLast? with
  | none => false
  | some label => (!label.isEmpty && label.all Char.isDigit) || (number? label).isSome

/-- The address of one to four numbers: each but the last is an octet, and the
last fills the octets that are left. -/
def octets? (name : List Char) : Option Address := do
  let numbers ← (labels name).mapM number?
  let last ← numbers.getLast?
  let first := numbers.dropLast
  if numbers.length ≤ 4 ∧ first.all (· < 256) ∧ last < Nat.pow 256 (4 - first.length) then
    some (.v4 (BitVec.ofNat 32 (Text.ofDigits 256 first * Nat.pow 256 (4 - first.length) + last)))
  else none

/-! ## Reading -/

/-- An address of the second family, after its bracket. -/
def bracketed? (cs : List Char) : Option Address :=
  if cs.getLast? = some ']' then
    (Address.eightGroups? cs.dropLast).map fun groups =>
      .v6 (BitVec.ofNat 128 (Text.ofDigits 65536 groups))
  else none

/-- The host of an address whose scheme the web knows. -/
def ofChars [HostNames] : List Char → Except UrlError Host
  | '[' :: rest =>
      match bracketed? rest with
      | some found => .ok (.address found)
      | none => .error .groups
  | cs =>
      match (Bytes.text? (Escape.decode cs)).bind fun s => name? s.toList with
      | none => .error .domainName
      | some name =>
          if name.isEmpty then .error .emptyHost
          else if endsInNumber name then
            match octets? name with
            | some found => .ok (.address found)
            | none => .error .octets
          else .ok (.domain (String.ofList name))

/-- The fault of a host of an address with any other scheme, if it has one. -/
def foreignFault? : List Char → Option UrlError
  | '[' :: rest => if (bracketed? rest).isSome then none else some .groups
  | cs =>
      if cs.any fun c => c.toNat = 0 || " #/:<>?@[\\]^|\t\n\r".toList.contains c then
        some .domainCharacter
      else none

end Host

end ComicCatalog
