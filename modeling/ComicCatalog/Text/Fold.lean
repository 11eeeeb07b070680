import ComicCatalog.Text.CaseTable

/-! # Case folding

Two texts name the same thing when their lowercase forms are equal. Lowercase
is the full Unicode mapping: letter by letter, with two forms for a capital
sigma according to where it stands in its word. Field names use the coarser
ASCII folding.
-/

namespace ComicCatalog.Text

/-- The property `Cased`: letters that have case. -/
def isCased (c : Char) : Bool :=
  inRanges casedRanges c.toNat

/-- The property `Case_Ignorable`: marks that do not end a word. -/
def isCaseIgnorable (c : Char) : Bool :=
  inRanges caseIgnorableRanges c.toNat

/-- The lowercase form of a character seen alone. A dotted capital `I` leaves
its dot behind as a combining mark; every other letter maps to one letter. -/
def foldChar (c : Char) : List Char :=
  if c.toNat < 128 then [c.toLower]
  else if c.toNat = 0x130 then ['i', Char.ofNat 0x307]
  else
    match caseRuns.findSome? fun run => run.lower? c.toNat with
    | some code => [Char.ofNat code]
    | none => [c]

/-- Whether the first character that is not case-ignorable is a cased letter. -/
def meetsCased (cs : List Char) : Bool :=
  match cs.dropWhile isCaseIgnorable with
  | [] => false
  | c :: _ => isCased c

/-- Lowercase `cs`, which follows the characters of `before` (nearest first).
A capital sigma is final when a cased letter stands before it and none after. -/
def foldAfter (before : List Char) : List Char → List Char
  | [] => []
  | c :: rest =>
      (if c.toNat = 0x3A3 then
        if meetsCased before && !meetsCased rest then [Char.ofNat 0x3C2] else [Char.ofNat 0x3C3]
      else foldChar c) ++ foldAfter (c :: before) rest

/-- The lowercase form of a list of characters. -/
def foldList (cs : List Char) : List Char :=
  foldAfter [] cs

/-- The lowercase form of a text. -/
def fold (s : String) : String :=
  String.ofList (foldList s.toList)

/-- The text with its ASCII capitals lowered and everything else kept. -/
def asciiFold (s : String) : String :=
  String.ofList (s.toList.map Char.toLower)

@[simp]
theorem toList_fold (s : String) : (fold s).toList = foldList s.toList := by
  simp [fold]

@[simp]
theorem foldList_nil : foldList [] = [] := rfl

end ComicCatalog.Text
