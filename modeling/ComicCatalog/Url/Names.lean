import ComicCatalog.Text.Fold
import ComicCatalog.Url.Bootstring
import ComicCatalog.Url.Host

/-! # Names beyond ASCII

The names beyond ASCII that the service knows: those of Latin, Greek, Cyrillic,
Japanese, Chinese and Korean letters that stand for themselves once they are
lowered, besides what names hold in ASCII. Their labels are encoded one by one.
No other name beyond ASCII is told in ASCII.
-/

namespace ComicCatalog.Host

/-- Letters that, lowered, stand for themselves in names. -/
def letterRanges : List (Nat × Nat) := [
    (0xC0, 0xD6), (0xD8, 0xF6), (0xF8, 0x12F), (0x134, 0x13E), (0x141, 0x148), (0x14A, 0x17E),
    (0x180, 0x1C3), (0x1CD, 0x1F0), (0x1F4, 0x2AF), (0x386, 0x386), (0x388, 0x38A),
    (0x38C, 0x38C), (0x38E, 0x3A1), (0x3A3, 0x3CF), (0x3FA, 0x481), (0x48A, 0x4BF),
    (0x4C1, 0x52F), (0x1E00, 0x1E99), (0x3041, 0x3096), (0x30A1, 0x30FA), (0x30FC, 0x30FE),
    (0x3400, 0x4DBF), (0x4E00, 0x9FFF), (0xAC00, 0xD7A3)]

/-- Whether a label in its final form may hold a character. -/
def isAdmitted (c : Char) : Bool :=
  if c.toNat < 128 then !isDenied c else Text.inRanges letterRanges c.toNat

/-- A lowered label in ASCII. One that is encoded already must spell letters beyond ASCII, in
lower case. -/
def label? (label : List Char) : Option (List Char) :=
  if !label.all isAdmitted then none
  else if labelMark.isPrefixOf label then
    match Bootstring.decode? (label.drop labelMark.length) with
    | some name =>
        if name.any (128 ≤ ·.toNat) && label.all (·.toNat < 128) &&
            name.all (fun c => isAdmitted c && Text.foldChar c == [c]) then
          some label
        else none
    | none => none
  else if label.all (·.toNat < 128) then some label
  else some (labelMark ++ Bootstring.encode label)

instance : HostNames where
  toAscii? cs :=
    (((cs.flatMap Text.foldChar).splitOn '.').mapM label?).map (List.intercalate ['.'])

end ComicCatalog.Host
