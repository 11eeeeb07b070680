import ComicCatalog.Proofs.Text.Folding

/-! # Case folding in place

The lowercase form of a text is made of those of its parts, each folded in its place. Only
a capital sigma looks at what stands around it, so a part is folded in place as it is
folded alone if each of its sigmas is final in both or in neither. A space, which ends a
word, keeps what stands on its two sides apart.
-/

namespace ComicCatalog.Text

/-- The one letter whose lowercase form depends on its place. -/
def capitalSigma : Char := 'Σ'

/-- What stands around a part of a text; `before` is read from its end. -/
structure Place where
  before : List Char
  behind : List Char

namespace Place

/-- Nothing stands around. -/
def alone : Place := ⟨[], []⟩

/-- The place between two pieces of what stands here. -/
def within (place : Place) (left right : List Char) : Place :=
  ⟨left.reverse ++ place.before, right ++ place.behind⟩

/-- A capital sigma is final here: a cased letter stands before it and none behind. -/
def endsWord (place : Place) : Bool :=
  meetsCased place.before && !meetsCased place.behind

/-- The lowercase form of a character that stands here. -/
def foldLetter (place : Place) (c : Char) : List Char :=
  if c.toNat = 0x3A3 then if place.endsWord then [Char.ofNat 0x3C2] else [Char.ofNat 0x3C3]
  else foldChar c

/-- The lowercase form of a part of a text that stands here. -/
def foldPart (place : Place) : List Char → List Char
  | [] => []
  | c :: rest => (place.within [] rest).foldLetter c ++ (place.within [c] []).foldPart rest

/-- The capital sigmas of a part are final in one place exactly if they are in the other. -/
def Agrees (place other : Place) (part : List Char) : Prop :=
  ∀ left right, part = left ++ capitalSigma :: right →
    (place.within left right).endsWord = (other.within left right).endsWord

variable {place other : Place}

/-! ## Parts of a text -/

theorem foldAfter_append (before part behind : List Char) :
    foldAfter before (part ++ behind) =
      (⟨before, behind⟩ : Place).foldPart part ++ foldAfter (part.reverse ++ before) behind := by
  induction part generalizing before with
  | nil => rfl
  | cons c rest ih =>
      rw [List.cons_append, foldAfter, ih (c :: before), foldPart, List.append_assoc,
        List.reverse_cons, List.append_assoc]
      rfl

theorem foldPart_alone (part : List Char) : alone.foldPart part = foldList part := by
  have happend := foldAfter_append [] part []
  rw [List.append_nil, foldAfter, List.append_nil] at happend
  exact happend.symm

/-- The lowercase form of a text has that of any part in its place. -/
theorem foldList_append (front part behind : List Char) :
    foldList (front ++ part ++ behind) =
      (⟨[], part ++ behind⟩ : Place).foldPart front ++ (⟨front.reverse, behind⟩ : Place).foldPart part ++
        (⟨part.reverse ++ front.reverse, []⟩ : Place).foldPart behind := by
  have hbehind := foldAfter_append (part.reverse ++ front.reverse) behind []
  rw [List.append_nil, foldAfter, List.append_nil] at hbehind
  rw [foldList, List.append_assoc, foldAfter_append, List.append_nil, foldAfter_append, hbehind,
    List.append_assoc]

/-! ## Places that agree -/

theorem toNat_eq_sigma {c : Char} : c.toNat = 0x3A3 ↔ c = capitalSigma := by
  constructor
  · intro hcode
    exact Char.toNat_inj.mp hcode
  · rintro rfl
    rfl

theorem agrees_cons {c : Char} {rest : List Char} :
    place.Agrees other (c :: rest) ↔
      (c = capitalSigma → (place.within [] rest).endsWord = (other.within [] rest).endsWord) ∧
        (place.within [c] []).Agrees (other.within [c] []) rest := by
  constructor
  · intro hagrees
    refine ⟨?_, ?_⟩
    · rintro rfl
      exact hagrees [] rest rfl
    · rintro left right rfl
      simpa [within] using hagrees (c :: left) right rfl
  · rintro ⟨hfirst, hrest⟩ left right hsplit
    cases left with
    | nil =>
        cases hsplit
        exact hfirst rfl
    | cons d left =>
        cases hsplit
        simpa [within] using hrest left right rfl

theorem foldLetter_eq_iff {c : Char} :
    place.foldLetter c = other.foldLetter c ↔ (c = capitalSigma → place.endsWord = other.endsWord) := by
  unfold foldLetter
  by_cases hsigma : c.toNat = 0x3A3
  · rw [if_pos hsigma, if_pos hsigma, forall_prop_of_true (toNat_eq_sigma.mp hsigma)]
    cases place.endsWord <;> cases other.endsWord <;> decide
  · rw [if_neg hsigma, if_neg hsigma]
    simp [mt toNat_eq_sigma.mpr hsigma]

theorem length_foldLetter (place other : Place) (c : Char) :
    (place.foldLetter c).length = (other.foldLetter c).length := by
  unfold foldLetter
  split
  · split <;> split <;> rfl
  · rfl

/-- A part is folded alike in two places exactly if its capital sigmas are final alike. -/
theorem foldPart_eq_iff {part : List Char} :
    place.foldPart part = other.foldPart part ↔ place.Agrees other part := by
  induction part generalizing place other with
  | nil =>
      refine ⟨fun _ left right hsplit => ?_, fun _ => rfl⟩
      simp at hsplit
  | cons c rest ih =>
      rw [agrees_cons, ← ih, ← foldLetter_eq_iff]
      constructor
      · intro heq
        exact List.append_inj heq (length_foldLetter _ _ c)
      · rintro ⟨hletter, hrest⟩
        rw [foldPart, foldPart, hletter, hrest]

/-- A part without capital sigmas is folded alike in all places. -/
theorem agrees_of_not_mem {part : List Char} (hsigma : capitalSigma ∉ part) :
    place.Agrees other part := by
  rintro left right rfl
  simp at hsigma

/-- The lowercase form of a part stands in that of the text, if the part is folded in its
place as it is folded alone. -/
theorem foldList_infix_of_agrees {front part behind : List Char}
    (hagrees : (⟨front.reverse, behind⟩ : Place).Agrees alone part) :
    foldList part <:+: foldList (front ++ part ++ behind) := by
  rw [foldList_append, foldPart_eq_iff.mpr hagrees, foldPart_alone]
  exact List.infix_append _ _ _

end Place

/-! ## Ends of words -/

/-- The character ends a word: it is neither passed over nor a letter that has case. -/
structure IsStop (stop : Char) : Prop where
  notIgnorable : isCaseIgnorable stop = false
  notCased : isCased stop = false

theorem isStop_space : IsStop ' ' := by
  constructor <;> decide +kernel

theorem meetsCased_append_stop {stop : Char} (hstop : IsStop stop) (cs rest : List Char) :
    meetsCased (cs ++ stop :: rest) = meetsCased cs := by
  induction cs with
  | nil => simp [meetsCased, hstop.notIgnorable, hstop.notCased]
  | cons c others ih =>
      cases hignorable : isCaseIgnorable c with
      | true => simpa [meetsCased, hignorable] using ih
      | false => simp [meetsCased, hignorable]

/-- What stands on the two sides of a space is folded apart. -/
theorem foldList_append_space (front back : List Char) :
    foldList (front ++ ' ' :: back) = foldList front ++ ' ' :: foldList back := by
  have hspace : ∀ place : Place, place.foldPart [' '] = [' '] := by
    intro place
    have hchar : foldChar ' ' = [' '] := by decide
    simp [Place.foldPart, Place.foldLetter, hchar]
  have hfront : (⟨[], ' ' :: back⟩ : Place).Agrees .alone front := by
    intro left right _
    simp [Place.within, Place.endsWord, Place.alone, meetsCased_append_stop isStop_space]
  have hback : (⟨' ' :: front.reverse, []⟩ : Place).Agrees .alone back := by
    intro left right _
    simp [Place.within, Place.endsWord, Place.alone, meetsCased_append_stop isStop_space]
  have hparts := Place.foldList_append front [' '] back
  rw [List.append_assoc, List.singleton_append] at hparts
  rw [hparts, hspace]
  simp only [List.reverse_singleton, List.singleton_append, List.append_assoc]
  rw [Place.foldPart_eq_iff.mpr hfront, Place.foldPart_eq_iff.mpr hback, Place.foldPart_alone,
    Place.foldPart_alone]

/-- Words with spaces between them are folded word by word. -/
theorem foldList_intercalate (words : List (List Char)) :
    foldList ([' '].intercalate words) = [' '].intercalate (words.map foldList) := by
  induction words with
  | nil => rfl
  | cons word rest ih =>
      cases rest with
      | nil => simp
      | cons next others =>
          rw [List.intercalate_cons_cons, List.append_assoc, List.singleton_append,
            foldList_append_space, ih]
          simp

/-! ## Characters beside the letters -/

namespace Apart

variable {ranges : List (Nat × Nat)}

theorem eq_of_mem_foldLetter (hapart : Apart ranges) {place : Place} {c d : Char}
    (hrange : inRanges ranges d.toNat = true) (hd : d ∈ place.foldLetter c) : d = c := by
  unfold Place.foldLetter at hd
  split at hd
  next =>
    have hsigma : d ∈ [Char.ofNat 0x3C2, Char.ofNat 0x3C3] := by
      split at hd <;> simp_all
    rw [hapart.sigma _ (List.mem_map_of_mem hsigma)] at hrange
    cases hrange
  next => exact hapart.eq_of_mem_foldChar hrange hd

/-- Such a character stands in a lowercase text only where it stands in the text. -/
theorem mem_of_mem_foldAfter (hapart : Apart ranges) {before cs : List Char} {d : Char}
    (hrange : inRanges ranges d.toNat = true) (hd : d ∈ foldAfter before cs) : d ∈ cs := by
  induction cs generalizing before with
  | nil => cases hd
  | cons c rest ih =>
      rcases List.mem_append.mp hd with hd | hd
      · have hsame : d = c := @eq_of_mem_foldLetter ranges hapart ⟨before, rest⟩ c d hrange hd
        exact List.mem_cons.mpr (Or.inl hsame)
      · exact List.mem_cons_of_mem c (ih hd)

end Apart

/-- NUL, and the last characters of the basic plane. -/
def IsLone (c : Char) : Prop :=
  c.toNat = 0 ∨ 0xFFFD ≤ c.toNat ∧ c.toNat ≤ 0xFFFF

def loneRanges : List (Nat × Nat) :=
  [(0, 0), (0xFFFD, 0xFFFF)]

theorem inRanges_lone {c : Char} (hlone : IsLone c) : inRanges loneRanges c.toNat = true := by
  simp only [inRanges, loneRanges, List.any_cons, List.any_nil, Bool.or_false, Bool.or_eq_true,
    Bool.and_eq_true, decide_eq_true_eq]
  unfold IsLone at hlone
  omega

theorem apart_lone : Apart loneRanges :=
  ⟨by decide, by decide +kernel, by decide, by decide⟩

/-- A lone character stands in a lowercase text only if it stands in the text. -/
theorem mem_of_mem_foldList {cs : List Char} {d : Char} (hlone : IsLone d) (hd : d ∈ foldList cs) :
    d ∈ cs :=
  apart_lone.mem_of_mem_foldAfter (inRanges_lone hlone) hd

/-! ## Ends of a text -/

namespace Place

theorem foldLetter_ne_nil (place : Place) (c : Char) : place.foldLetter c ≠ [] := by
  unfold foldLetter
  split
  · split <;> exact List.cons_ne_nil _ _
  · exact foldChar_ne_nil c

/-- A lowercase text starts with what its first character is folded to. -/
theorem exists_of_mem_head?_foldList {cs : List Char} {d : Char} (hd : d ∈ (foldList cs).head?) :
    ∃ c ∈ cs.head?, ∃ place : Place, d ∈ place.foldLetter c := by
  cases cs with
  | nil => simp at hd
  | cons c rest =>
      refine ⟨c, rfl, ⟨[], rest⟩, ?_⟩
      have hfirst : foldList (c :: rest) = (⟨[], rest⟩ : Place).foldLetter c ++ foldAfter [c] rest := rfl
      rw [hfirst, List.head?_append_of_ne_nil _ (foldLetter_ne_nil _ c)] at hd
      exact List.mem_of_mem_head? hd

/-- A lowercase text ends with what its last character is folded to. -/
theorem exists_of_mem_getLast?_foldList {cs : List Char} {d : Char}
    (hd : d ∈ (foldList cs).getLast?) : ∃ c ∈ cs.getLast?, ∃ place : Place, d ∈ place.foldLetter c := by
  rcases List.eq_nil_or_concat' cs with rfl | ⟨front, c, rfl⟩
  · simp at hd
  · refine ⟨c, by simp, ⟨front.reverse, []⟩, ?_⟩
    have hlast : foldAfter (front.reverse ++ []) [c] = (⟨front.reverse, []⟩ : Place).foldLetter c := by
      rw [List.append_nil]
      exact List.append_nil _
    rw [foldList, foldAfter_append, hlast,
      List.getLast?_append_of_ne_nil _ (foldLetter_ne_nil _ c)] at hd
    exact List.mem_of_mem_getLast? hd

end Place

/-- The blanks. -/
def blankRanges : List (Nat × Nat) :=
  [(9, 13), (0x20, 0x20), (0x85, 0x85), (0xA0, 0xA0), (0x1680, 0x1680), (0x2000, 0x200A),
    (0x2028, 0x2029), (0x202F, 0x202F), (0x205F, 0x205F), (0x3000, 0x3000)]

theorem inRanges_blank {c : Char} : inRanges blankRanges c.toNat = isBlank c := by
  rw [Bool.eq_iff_iff]
  simp only [inRanges, blankRanges, isBlank, isAsciiBlank, List.any_cons, List.any_nil,
    Bool.or_false, Bool.or_eq_true, Bool.and_eq_true, decide_eq_true_eq, beq_iff_eq]
  omega

theorem apart_blank : Apart blankRanges :=
  ⟨by decide, by decide +kernel, by decide, by decide⟩

theorem not_blank_of_mem_foldLetter {place : Place} {c d : Char} (hc : isBlank c = false)
    (hd : d ∈ place.foldLetter c) : isBlank d = false := by
  cases hblank : isBlank d with
  | false => rfl
  | true => rw [← hblank, apart_blank.eq_of_mem_foldLetter (inRanges_blank.trans hblank) hd, hc]

end ComicCatalog.Text
