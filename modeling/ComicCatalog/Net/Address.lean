import ComicCatalog.Text.Basic

/-! # Network addresses

Addresses of the two families with their texts. Reading is strict: octets are
decimal without leading zeros, groups have one to four hexadecimal digits, and
`::` stands for at least one group. Writing gives one canonical text.
-/

namespace ComicCatalog

/-- An address of one of the two families. -/
inductive Address
  | v4 (bits : BitVec 32)
  | v6 (bits : BitVec 128)
  deriving DecidableEq, Repr, Inhabited

namespace Address

/-- The pieces of a number, most significant first: `count` digits to the base. -/
def pieces (base : Nat) : Nat → Nat → List Nat
  | 0, _ => []
  | count + 1, n => pieces base count (n / base) ++ [n % base]

/-! ## Reading -/

/-- A decimal number below 256 of at most three digits, without leading zeros. -/
def octet? (cs : List Char) : Option Nat :=
  let value := Text.digitsValue cs
  if cs ≠ [] ∧ cs.length ≤ 3 ∧ cs.all Char.isDigit ∧ value < 256 ∧
      (cs.head? = some '0' → cs.length = 1) then some value
  else none

/-- Four octets between dots. -/
def octets? (cs : List Char) : Option (List Nat) := do
  let octets ← (cs.splitOn '.').mapM octet?
  if octets.length = 4 then some octets else none

/-- A group of one to four hexadecimal digits. -/
def group? (cs : List Char) : Option Nat :=
  if 0 < cs.length ∧ cs.length ≤ 4 then
    Text.number? 16 cs
  else none

/-- Groups between colons. The last may be written as four octets, which make
two groups. -/
def groups? : List (List Char) → Option (List Nat)
  | [] => some []
  | [last] =>
      match octets? last with
      | some octets => some (pieces 65536 2 (Text.ofDigits 256 octets))
      | none => (group? last).map ([·])
  | first :: rest => do
      let group ← group? first
      let rest ← groups? rest
      some (group :: rest)

/-- The text before and behind the first `::`. -/
def cutGap? : List Char → Option (List Char × List Char)
  | ':' :: ':' :: rest => some ([], rest)
  | c :: rest => (cutGap? rest).map fun (before, behind) => (c :: before, behind)
  | [] => none

/-- Groups between colons; none for the empty text. -/
def groupList? (cs : List Char) : Option (List Nat) :=
  if cs.isEmpty then some [] else groups? (cs.splitOn ':')

/-- The eight groups of an address of the second family. -/
def eightGroups? (cs : List Char) : Option (List Nat) :=
  match cutGap? cs with
  | none => do
      let groups ← groupList? cs
      if groups.length = 8 then some groups else none
  | some (before, behind) => do
      let head ← groupList? before
      let tail ← groupList? behind
      let count := head.length + tail.length
      if count < 8 ∧ !before.contains '.' then
        some (head ++ List.replicate (8 - count) 0 ++ tail)
      else none

/-- The address a text spells. -/
def ofText? (s : String) : Option Address :=
  match octets? s.toList with
  | some octets => some (.v4 (BitVec.ofNat 32 (Text.ofDigits 256 octets)))
  | none =>
      (eightGroups? s.toList).map fun groups => .v6 (BitVec.ofNat 128 (Text.ofDigits 65536 groups))

/-! ## Writing -/

/-- The count of zeros from a position on. -/
def zerosAt (groups : List Nat) (position : Nat) : Nat :=
  ((groups.drop position).takeWhile (· == 0)).length

/-- The first of the longest runs of two or more zero groups: where it starts
and how long it is. -/
def zeroRun? (groups : List Nat) : Option (Nat × Nat) :=
  (List.range groups.length).foldl (fun best position =>
    let count := zerosAt groups position
    if (best.elim 1 Prod.snd) < count then some (position, count) else best) none

/-- Groups in hexadecimal between colons. -/
def groupsText (groups : List Nat) : String :=
  String.intercalate ":" (groups.map fun group => String.ofList (Nat.toDigits 16 group))

/-- Groups with their longest run of zeros written as `::`. -/
def compressed (groups : List Nat) : String :=
  match zeroRun? groups with
  | none => groupsText groups
  | some (start, count) =>
      groupsText (groups.take start) ++ "::" ++ groupsText (groups.drop (start + count))

/-- The last four octets of a number, between dots. -/
def octetsText (bits : Nat) : String :=
  String.intercalate "." ((pieces 256 4 bits).map toString)

/-- The canonical text. Addresses of the first family that are mapped into the
second show their octets. -/
def text : Address → String
  | .v4 bits => octetsText bits.toNat
  | .v6 bits =>
      let groups := pieces 65536 8 bits.toNat
      if groups.take 6 = [0, 0, 0, 0, 0, 0xFFFF] then
        "::ffff:" ++ octetsText bits.toNat
      else compressed groups

end Address

end ComicCatalog
