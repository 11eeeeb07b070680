import ComicCatalog.Text.Fold
import ComicCatalog.Store.Statement
import Mathlib.Tactic

/-! # Case folding is stable

A lowercase text is its own lowercase form, because no lowercase letter of the case
table is a capital of it. Putting backslashes before the characters that patterns give
a meaning does not disturb case folding either: none of them is a letter, and none is
passed over when the place of a capital sigma is looked at.
-/

namespace ComicCatalog.Text

/-! ## The case table -/

/-- Whether no lowercase letter of a run is a capital of another. -/
def CaseRun.avoids (run other : CaseRun) : Bool :=
  Nat.blt (run.image + (run.last - run.first)) other.first || Nat.blt other.last run.image ||
    (other.step == 2 && (run.step == 2 || run.first == run.last) &&
      (run.image + other.first) % 2 == 1)

/-- Whether the lowercase letters of a run are characters, beyond ASCII unless there is
but the letter `k`, and none of them the dotted capital `I`. -/
def CaseRun.isOrdinary (run : CaseRun) : Bool :=
  ((run.image == 0x6B && run.first == run.last) || Nat.ble 128 run.image) &&
    Nat.ble (run.image + (run.last - run.first)) 0x1FFFF &&
    (Nat.blt (run.image + (run.last - run.first)) 0xD800 || Nat.ble 0xE000 run.image) &&
    (Nat.blt (run.image + (run.last - run.first)) 0x130 || Nat.blt 0x130 run.image)

theorem caseRuns_avoid : (caseRuns.all fun run => caseRuns.all run.avoids) = true := by
  decide +kernel

theorem caseRuns_ordinary : caseRuns.all CaseRun.isOrdinary = true := by
  decide +kernel

variable {run other : CaseRun} {code image : Nat}

theorem CaseRun.lower?_eq_some (h : run.lower? code = some image) :
    run.first ≤ code ∧ code ≤ run.last ∧ (code - run.first) % run.step = 0 ∧
      image = run.image + (code - run.first) := by
  unfold lower? at h
  split at h
  next hcode =>
    cases h
    exact ⟨hcode.1, hcode.2.1, hcode.2.2, rfl⟩
  next => cases h

theorem CaseRun.lower?_of_avoids (havoids : run.avoids other = true)
    (h : run.lower? code = some image) : other.lower? image = none := by
  obtain ⟨hfirst, hlast, hstep, rfl⟩ := lower?_eq_some h
  simp only [avoids, Bool.or_eq_true, Bool.and_eq_true, Nat.blt_eq, beq_iff_eq] at havoids
  unfold lower?
  rw [if_neg]
  rintro ⟨hother, hother', hstep'⟩
  rcases havoids with (hbelow | habove) | ⟨⟨htwo, hrun⟩, hodd⟩
  · omega
  · omega
  · rw [htwo] at hstep'
    rcases hrun with hrun | hrun
    · rw [hrun] at hstep
      omega
    · omega

/-- The lowercase letter that the table gives, if it gives one. -/
def lowerCode? (code : Nat) : Option Nat :=
  caseRuns.findSome? fun run => run.lower? code

theorem lowerCode?_image (h : lowerCode? code = some image) :
    lowerCode? image = none ∧ (image = 0x6B ∨ 128 ≤ image) ∧ image.isValidChar ∧ image ≠ 0x130 := by
  obtain ⟨run, hrun, hlower⟩ := List.exists_of_findSome?_eq_some h
  have hordinary := List.all_eq_true.mp caseRuns_ordinary run hrun
  have havoid := List.all_eq_true.mp (List.all_eq_true.mp caseRuns_avoid run hrun)
  obtain ⟨hfirst, hlast, -, himage⟩ := CaseRun.lower?_eq_some hlower
  simp only [CaseRun.isOrdinary, Bool.or_eq_true, Bool.and_eq_true, Nat.blt_eq, Nat.ble_eq,
    beq_iff_eq] at hordinary
  obtain ⟨⟨⟨hleast, hmost⟩, hsurrogate⟩, hdotted⟩ := hordinary
  refine ⟨?_, ?_, ?_, ?_⟩
  · exact List.findSome?_eq_none_iff.mpr fun other hother =>
      CaseRun.lower?_of_avoids (havoid other hother) hlower
  · omega
  · rcases hsurrogate with hsmall | hlarge
    · exact Or.inl (by omega)
    · exact Or.inr ⟨by omega, by omega⟩
  · omega

/-! ## Lowercase characters -/

/-- The character is its own lowercase form wherever it stands. -/
structure IsFolded (c : Char) : Prop where
  foldChar_eq : foldChar c = [c]
  not_sigma : c.toNat ≠ 0x3A3

theorem toLower_ascii {c : Char} (hascii : c.toNat < 128) :
    c.toLower.toNat < 128 ∧ c.toLower.toLower = c.toLower := by
  have hall : ∀ n < 128, (Char.ofNat n).toLower.toNat < 128 ∧
      (Char.ofNat n).toLower.toLower = (Char.ofNat n).toLower := by
    decide +kernel
  simpa using hall c.toNat hascii

theorem isFolded_of_ascii {c : Char} (hascii : c.toNat < 128) (hlower : c.toLower = c) :
    IsFolded c := by
  refine ⟨?_, by omega⟩
  rw [foldChar, if_pos hascii, hlower]

theorem foldChar_of_lowerCode? {c : Char} {image : Nat} (hascii : ¬ c.toNat < 128)
    (hdotted : c.toNat ≠ 0x130) (h : lowerCode? c.toNat = some image) :
    foldChar c = [Char.ofNat image] := by
  unfold lowerCode? at h
  simp only [foldChar, if_neg hascii, if_neg hdotted, h]

theorem foldChar_of_not_lowerCode? {c : Char} (hascii : ¬ c.toNat < 128) (hdotted : c.toNat ≠ 0x130)
    (h : lowerCode? c.toNat = none) : foldChar c = [c] := by
  unfold lowerCode? at h
  simp only [foldChar, if_neg hascii, if_neg hdotted, h]

/-- A capital sigma is in the table, so it is no lowercase letter of it. -/
theorem lowerCode?_sigma : lowerCode? 0x3A3 = some 0x3C3 := by
  decide

/-- What a character is folded to is folded. -/
theorem isFolded_of_mem_foldChar {c d : Char} (hsigma : c.toNat ≠ 0x3A3) (hd : d ∈ foldChar c) :
    IsFolded d := by
  by_cases hascii : c.toNat < 128
  · rw [foldChar, if_pos hascii, List.mem_singleton] at hd
    subst hd
    obtain ⟨hlow, hfixed⟩ := toLower_ascii hascii
    exact isFolded_of_ascii hlow hfixed
  by_cases hdotted : c.toNat = 0x130
  · rw [foldChar, if_neg hascii, if_pos hdotted] at hd
    rcases List.mem_cons.mp hd with rfl | hd
    · exact isFolded_of_ascii (by decide) (by decide)
    · rw [List.mem_singleton.mp hd]
      exact ⟨by decide, by decide⟩
  cases himage : lowerCode? c.toNat with
  | none =>
      rw [foldChar_of_not_lowerCode? hascii hdotted himage, List.mem_singleton] at hd
      subst hd
      exact ⟨foldChar_of_not_lowerCode? hascii hdotted himage, hsigma⟩
  | some image =>
      rw [foldChar_of_lowerCode? hascii hdotted himage, List.mem_singleton] at hd
      subst hd
      -- What the table maps to is mapped no further, which is checked once for the whole table.
      obtain ⟨hnone, hplain, hvalid, hdotted'⟩ := lowerCode?_image himage
      have hcode : (Char.ofNat image).toNat = image := by
        rw [Char.ofNat, dif_pos hvalid]
        rfl
      rcases hplain with rfl | hlarge
      · exact isFolded_of_ascii (by decide) (by decide)
      · refine ⟨foldChar_of_not_lowerCode? (by omega) (by omega) (by rwa [hcode]), ?_⟩
        intro hsame
        rw [hcode] at hsame
        rw [hsame, lowerCode?_sigma] at hnone
        cases hnone

theorem isFolded_of_mem_foldAfter {before cs : List Char} {d : Char} (hd : d ∈ foldAfter before cs) :
    IsFolded d := by
  induction cs generalizing before with
  | nil => cases hd
  | cons c rest ih =>
      rw [foldAfter] at hd
      rcases List.mem_append.mp hd with hd | hd
      · split at hd
        next =>
          split at hd
          all_goals
            rw [List.mem_singleton.mp hd]
            exact ⟨by decide, by decide⟩
        next hsigma => exact isFolded_of_mem_foldChar hsigma hd
      · exact ih hd

theorem foldAfter_of_isFolded {before cs : List Char} (hfolded : ∀ c ∈ cs, IsFolded c) :
    foldAfter before cs = cs := by
  induction cs generalizing before with
  | nil => rfl
  | cons c rest ih =>
      obtain ⟨hchar, hsigma⟩ := hfolded c List.mem_cons_self
      rw [foldAfter, if_neg hsigma, hchar, ih fun d hd => hfolded d (List.mem_cons_of_mem c hd)]
      rfl

/-- A lowercase text is its own lowercase form. -/
@[simp]
theorem foldList_foldList (cs : List Char) : foldList (foldList cs) = foldList cs :=
  foldAfter_of_isFolded fun _ hc => isFolded_of_mem_foldAfter hc

@[simp]
theorem fold_fold (s : String) : fold (fold s) = fold s := by
  simp only [fold, String.toList_ofList, foldList_foldList]

theorem foldChar_ne_nil (c : Char) : foldChar c ≠ [] := by
  unfold foldChar
  split
  · simp
  · split
    · simp
    · split <;> simp

/-- Only the empty text has an empty lowercase form. -/
theorem fold_eq_empty {s : String} : fold s = "" ↔ s = "" := by
  constructor
  · intro hfold
    have hlist : foldList s.toList = [] := by
      rw [← toList_fold, hfold]
      rfl
    cases hs : s.toList with
    | nil => exact String.toList_eq_nil_iff.mp hs
    | cons c rest =>
        rw [hs, foldList, foldAfter, List.append_eq_nil_iff] at hlist
        exfalso
        revert hlist
        split
        · split <;> simp
        · intro hlist
          exact foldChar_ne_nil c hlist.1
  · rintro rfl
    rfl

/-! ## Characters beside the letters -/

/-- The characters with codes in the ranges are the lowercase forms of nothing but themselves. -/
structure Apart (ranges : List (Nat × Nat)) : Prop where
  ascii : ∀ n < 128, inRanges ranges (Char.ofNat n).toLower.toNat = true →
    (Char.ofNat n).toLower = Char.ofNat n
  table : ∀ run ∈ caseRuns, ∀ range ∈ ranges,
    run.image + (run.last - run.first) < range.1 ∨ range.2 < run.image
  dotted : ∀ code ∈ ['i', Char.ofNat 0x307].map Char.toNat, inRanges ranges code = false
  sigma : ∀ code ∈ [Char.ofNat 0x3C2, Char.ofNat 0x3C3].map Char.toNat, inRanges ranges code = false

namespace Apart

variable {ranges : List (Nat × Nat)}

theorem lowerCode? (hapart : Apart ranges) (himage : lowerCode? code = some image) :
    inRanges ranges image = false := by
  obtain ⟨run, hrun, hlower⟩ := List.exists_of_findSome?_eq_some himage
  obtain ⟨hfirst, hlast, -, rfl⟩ := CaseRun.lower?_eq_some hlower
  rw [inRanges, List.any_eq_false]
  intro range hrange
  have hbeside := hapart.table run hrun range hrange
  simp only [Bool.and_eq_true, decide_eq_true_eq]
  omega

theorem eq_of_mem_foldChar (hapart : Apart ranges) {c d : Char} (hrange : inRanges ranges d.toNat = true)
    (hd : d ∈ foldChar c) : d = c := by
  by_cases hascii : c.toNat < 128
  · rw [foldChar, if_pos hascii, List.mem_singleton] at hd
    have hsame := hapart.ascii c.toNat hascii
    rw [Char.ofNat_toNat, ← hd] at hsame
    exact hsame hrange
  by_cases hdotted : c.toNat = 0x130
  · rw [foldChar, if_neg hascii, if_pos hdotted] at hd
    rw [hapart.dotted _ (List.mem_map_of_mem hd)] at hrange
    cases hrange
  cases himage : Text.lowerCode? c.toNat with
  | none =>
      rw [foldChar_of_not_lowerCode? hascii hdotted himage, List.mem_singleton] at hd
      exact hd
  | some image =>
      rw [foldChar_of_lowerCode? hascii hdotted himage, List.mem_singleton] at hd
      obtain ⟨-, -, hvalid, -⟩ := lowerCode?_image himage
      have hcode : d.toNat = image := by
        rw [hd, Char.ofNat, dif_pos hvalid]
        rfl
      rw [hcode, hapart.lowerCode? himage] at hrange
      cases hrange

end Apart

/-! ## Patterns -/

/-- The characters that a pattern gives a meaning. -/
def isSpecial (c : Char) : Bool :=
  c == '%' || c == '_' || c == '\\'

theorem escapePattern_cons (c : Char) (cs : List Char) :
    escapePattern (c :: cs) = (if isSpecial c then ['\\', c] else [c]) ++ escapePattern cs := by
  have hspecial : (c = '%' ∨ c = '_' ∨ c = '\\') ↔ isSpecial c = true := by
    simp [isSpecial, or_assoc]
  simp only [escapePattern, List.flatMap_cons, hspecial]

theorem escapePattern_append (first second : List Char) :
    escapePattern (first ++ second) = escapePattern first ++ escapePattern second :=
  List.flatMap_append

theorem escapePattern_of_plain {cs : List Char} (hplain : ∀ c ∈ cs, isSpecial c = false) :
    escapePattern cs = cs := by
  induction cs with
  | nil => rfl
  | cons c rest ih =>
      rw [escapePattern_cons, hplain c List.mem_cons_self,
        ih fun d hd => hplain d (List.mem_cons_of_mem c hd)]
      rfl

/-- The special characters are no letters, and end a word. -/
theorem special_spec {c : Char} (hspecial : isSpecial c = true) :
    c.toNat ≠ 0x3A3 ∧ foldChar c = [c] ∧ isCaseIgnorable c = false ∧ isCased c = false := by
  simp only [isSpecial, Bool.or_eq_true, beq_iff_eq] at hspecial
  rcases hspecial with (rfl | rfl) | rfl <;> decide +kernel

/-- The percent sign, the underscore and the backslash. -/
def specialRanges : List (Nat × Nat) :=
  [(0x25, 0x25), (0x5C, 0x5C), (0x5F, 0x5F)]

theorem inRanges_special {c : Char} : inRanges specialRanges c.toNat = isSpecial c := by
  rw [Bool.eq_iff_iff]
  simp only [inRanges, specialRanges, isSpecial, List.any_cons, List.any_nil, Bool.or_false,
    Bool.or_eq_true, Bool.and_eq_true, decide_eq_true_eq, beq_iff_eq, ← Char.toNat_inj]
  have hpercent : '%'.toNat = 0x25 := rfl
  have hline : '_'.toNat = 0x5F := rfl
  have hslash : '\\'.toNat = 0x5C := rfl
  omega

theorem apart_special : Apart specialRanges :=
  ⟨by decide, by decide +kernel, by decide, by decide⟩

/-- No other character is folded to a special one. -/
theorem not_special_of_mem_foldChar {c d : Char} (hspecial : isSpecial c = false)
    (hd : d ∈ foldChar c) : isSpecial d = false := by
  cases hd' : isSpecial d with
  | false => rfl
  | true =>
      rw [apart_special.eq_of_mem_foldChar (inRanges_special.trans hd') hd, hspecial] at hd'
      cases hd'

/-- Backslashes beside special characters, and a special character at the end, do not
change whether a cased letter is met first. -/
theorem meetsCased_flatMap {f : Char → List Char} (hplain : ∀ c, isSpecial c = false → f c = [c])
    (hspecial : ∀ c, isSpecial c = true → ∃ d rest, f c = d :: rest ∧ isSpecial d = true)
    (cs : List Char) : meetsCased (cs.flatMap f ++ ['%']) = meetsCased cs := by
  induction cs with
  | nil =>
      have hpercent : isSpecial '%' = true := by decide
      obtain ⟨-, -, hignorable, hcased⟩ := special_spec hpercent
      simp [meetsCased, hignorable, hcased]
  | cons c rest ih =>
      cases hc : isSpecial c with
      | true =>
          obtain ⟨d, more, hf, hd⟩ := hspecial c hc
          obtain ⟨-, -, hignorable, hcased⟩ := special_spec hd
          obtain ⟨-, -, hignorable', hcased'⟩ := special_spec hc
          simp [meetsCased, hf, hignorable, hcased, hignorable', hcased']
      | false =>
          cases hignorable : isCaseIgnorable c with
          | true => simpa [meetsCased, hplain c hc, hignorable] using ih
          | false => simp [meetsCased, hplain c hc, hignorable]

/-- The characters before a place in an escaped pattern, nearest first. -/
def escapedBefore (before : List Char) : List Char :=
  before.flatMap (fun c => if isSpecial c then [c, '\\'] else [c]) ++ ['%']

theorem meetsCased_escapedBefore (before : List Char) :
    meetsCased (escapedBefore before) = meetsCased before := by
  refine meetsCased_flatMap ?_ ?_ before
  · intro c hc
    simp [hc]
  · intro c hc
    exact ⟨c, ['\\'], by simp [hc], hc⟩

theorem meetsCased_escapePattern (cs : List Char) :
    meetsCased (escapePattern cs ++ ['%']) = meetsCased cs := by
  refine meetsCased_flatMap ?_ ?_ cs
  · intro c hc
    simp only [isSpecial, Bool.or_eq_false_iff, beq_eq_false_iff_ne] at hc
    simp [hc]
  · intro c hc
    refine ⟨'\\', [c], ?_, by decide⟩
    simp only [isSpecial, Bool.or_eq_true, beq_iff_eq] at hc
    simp [or_assoc.mp hc]

/-- Escaping and case folding can be done in either order. -/
theorem foldAfter_escaped (before cs : List Char) :
    foldAfter (escapedBefore before) (escapePattern cs ++ ['%']) =
      escapePattern (foldAfter before cs) ++ ['%'] := by
  induction cs generalizing before with
  | nil =>
      have hpercent : foldChar '%' = ['%'] := by decide
      simp [escapePattern, foldAfter, hpercent]
  | cons c rest ih =>
      have hnext := ih (c :: before)
      rw [escapePattern_cons, foldAfter, escapePattern_append]
      cases hc : isSpecial c with
      | true =>
          obtain ⟨hsigma, hchar, -, -⟩ := special_spec hc
          have hslash : foldChar '\\' = ['\\'] := by decide
          have hbefore : escapedBefore (c :: before) = c :: '\\' :: escapedBefore before := by
            simp [escapedBefore, hc]
          have hescaped : escapePattern [c] = ['\\', c] := by
            rw [escapePattern_cons, if_pos hc]
            rfl
          rw [hbefore] at hnext
          simp [foldAfter, hsigma, hchar, hslash, hnext, hescaped]
      | false =>
          have hbefore : escapedBefore (c :: before) = c :: escapedBefore before := by
            simp [escapedBefore, hc]
          rw [hbefore] at hnext
          -- The backslashes around do not change how a sigma is folded.
          simp only [Bool.false_eq_true, if_false, List.cons_append, List.nil_append,
            foldAfter, meetsCased_escapedBefore, meetsCased_escapePattern, hnext,
            List.append_assoc]
          refine congrArg (· ++ _) (escapePattern_of_plain ?_).symm
          intro d hd
          split at hd
          next =>
            split at hd
            all_goals
              rw [List.mem_singleton.mp hd]
              decide
          next => exact not_special_of_mem_foldChar hc hd

/-- The lowercase form of a substring pattern is the pattern of the lowercase text. -/
theorem toList_fold_substringPattern (needle : String) :
    (fold (substringPattern needle)).toList = '%' :: (escapePattern (foldList needle.toList) ++ ['%']) := by
  have hpercent : foldChar '%' = ['%'] := by decide
  have hsigma : ('%' : Char).toNat ≠ 0x3A3 := by decide
  rw [toList_fold, substringPattern, String.toList_ofList, foldList, foldAfter, if_neg hsigma, hpercent]
  exact congrArg ('%' :: ·) (foldAfter_escaped [] needle.toList)

end ComicCatalog.Text
