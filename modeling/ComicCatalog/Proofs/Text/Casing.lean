import ComicCatalog.Proofs.Text.Folding

/-! # ASCII case

Case folding forgets the ASCII case of a text: a capital and its small letter are letters
that have case and are folded alike, so they stand for one another everywhere. Tests of
characters that are no ASCII letters do not see the case either.
-/

namespace ComicCatalog.Text

/-- A character is its own ASCII lowercase form, or a capital with a small letter. -/
theorem toLower_cases (c : Char) :
    c.toLower = c ∨ ∃ n < 26, c = Char.ofNat (65 + n) ∧ c.toLower = Char.ofNat (97 + n) := by
  by_cases hc : 65 ≤ c.toNat ∧ c.toNat ≤ 90
  · have hlower : ∀ n < 26, (Char.ofNat (65 + n)).toLower = Char.ofNat (97 + n) := by
      decide
    obtain ⟨n, hn⟩ := Nat.exists_eq_add_of_le hc.1
    have hchar : c = Char.ofNat (65 + n) := by rw [← hn, Char.ofNat_toNat]
    refine Or.inr ⟨n, by omega, hchar, ?_⟩
    rw [hchar, hlower n (by omega)]
  · left
    unfold Char.toLower
    rw [dif_neg]
    rintro ⟨hleast, hmost⟩
    exact hc ⟨UInt32.le_iff_toNat_le.mp hleast, UInt32.le_iff_toNat_le.mp hmost⟩

/-- What is the same of every ASCII capital and its small letter is the same of all
characters and their ASCII lowercase forms. -/
theorem eq_toLower_of_capitals {α : Type} {f : Char → α}
    (hcapitals : ∀ n < 26, f (Char.ofNat (97 + n)) = f (Char.ofNat (65 + n))) (c : Char) :
    f c.toLower = f c := by
  rcases toLower_cases c with hsame | ⟨n, hn, hchar, hlower⟩
  · rw [hsame]
  · rw [hlower, hchar, hcapitals n hn]

theorem caseIgnorableRanges_apart : (caseIgnorableRanges.all fun range =>
    Nat.blt range.2 65 || Nat.blt 90 range.1 && Nat.blt range.2 97 || Nat.blt 122 range.1) = true := by
  decide +kernel

/-- The ASCII letters end words. -/
theorem not_isCaseIgnorable_of_letter {c : Char}
    (hletter : 65 ≤ c.toNat ∧ c.toNat ≤ 90 ∨ 97 ≤ c.toNat ∧ c.toNat ≤ 122) :
    isCaseIgnorable c = false := by
  rw [isCaseIgnorable, inRanges, List.any_eq_false]
  intro range hrange
  have hapart := List.all_eq_true.mp caseIgnorableRanges_apart range hrange
  simp only [Bool.or_eq_true, Bool.and_eq_true, Nat.blt_eq] at hapart
  simp only [Bool.and_eq_true, decide_eq_true_eq]
  omega

theorem isCased_of_letter {c : Char}
    (hletter : 65 ≤ c.toNat ∧ c.toNat ≤ 90 ∨ 97 ≤ c.toNat ∧ c.toNat ≤ 122) : isCased c = true := by
  have hcapitals : (0x41, 0x5A) ∈ casedRanges := by decide
  have hsmall : (0x61, 0x7A) ∈ casedRanges := by decide
  rw [isCased, inRanges, List.any_eq_true]
  rcases hletter with hletter | hletter
  · exact ⟨_, hcapitals, by simpa using hletter⟩
  · exact ⟨_, hsmall, by simpa using hletter⟩

/-- Both letters of a pair of capital and small letter are letters. -/
theorem letters_of_lt {n : Nat} (hn : n < 26) :
    (65 ≤ (Char.ofNat (65 + n)).toNat ∧ (Char.ofNat (65 + n)).toNat ≤ 90) ∧
      97 ≤ (Char.ofNat (97 + n)).toNat ∧ (Char.ofNat (97 + n)).toNat ≤ 122 := by
  have hall : ∀ n < 26, (65 ≤ (Char.ofNat (65 + n)).toNat ∧ (Char.ofNat (65 + n)).toNat ≤ 90) ∧
      97 ≤ (Char.ofNat (97 + n)).toNat ∧ (Char.ofNat (97 + n)).toNat ≤ 122 := by
    decide
  exact hall n hn

theorem isCaseIgnorable_toLower (c : Char) : isCaseIgnorable c.toLower = isCaseIgnorable c := by
  refine eq_toLower_of_capitals (fun n hn => ?_) c
  obtain ⟨hcapital, hsmall⟩ := letters_of_lt hn
  rw [not_isCaseIgnorable_of_letter (Or.inl hcapital), not_isCaseIgnorable_of_letter (Or.inr hsmall)]

theorem isCased_toLower (c : Char) : isCased c.toLower = isCased c := by
  refine eq_toLower_of_capitals (fun n hn => ?_) c
  obtain ⟨hcapital, hsmall⟩ := letters_of_lt hn
  rw [isCased_of_letter (Or.inl hcapital), isCased_of_letter (Or.inr hsmall)]

theorem foldChar_toLower (c : Char) : foldChar c.toLower = foldChar c :=
  eq_toLower_of_capitals (by decide) c

theorem isBlank_toLower (c : Char) : isBlank c.toLower = isBlank c :=
  eq_toLower_of_capitals (by decide) c

theorem isAsciiBlank_toLower (c : Char) : isAsciiBlank c.toLower = isAsciiBlank c :=
  eq_toLower_of_capitals (by decide) c

theorem toLower_toLower (c : Char) : c.toLower.toLower = c.toLower :=
  eq_toLower_of_capitals (f := Char.toLower) (by decide) c

/-- A character that is no ASCII letter is the ASCII lowercase form of itself only. -/
theorem toLower_beq {d : Char} (hother : ∀ n < 26,
    (Char.ofNat (97 + n) == d) = (Char.ofNat (65 + n) == d)) (c : Char) :
    (c.toLower == d) = (c == d) :=
  eq_toLower_of_capitals (f := (· == d)) hother c

/-! ## Runs and texts -/

section Runs

variable {p : Char → Bool}

theorem takeWhile_toLower (hp : ∀ c, p c.toLower = p c) (cs : List Char) :
    (cs.map Char.toLower).takeWhile p = (cs.takeWhile p).map Char.toLower := by
  rw [List.takeWhile_map]
  congr 2
  exact funext hp

theorem dropWhile_toLower (hp : ∀ c, p c.toLower = p c) (cs : List Char) :
    (cs.map Char.toLower).dropWhile p = (cs.dropWhile p).map Char.toLower := by
  rw [List.dropWhile_map]
  congr 2
  exact funext hp

theorem strip_toLower (hp : ∀ c, p c.toLower = p c) (cs : List Char) :
    strip p (cs.map Char.toLower) = (strip p cs).map Char.toLower := by
  simp only [strip, dropWhile_toLower hp, ← List.map_reverse]

theorem splitOnP_toLower (hp : ∀ c, p c.toLower = p c) (cs : List Char) :
    (cs.map Char.toLower).splitOnP p = (cs.splitOnP p).map (List.map Char.toLower) := by
  induction cs with
  | nil => rfl
  | cons c rest ih =>
      rw [List.map_cons, List.splitOnP_cons_eq_if_modifyHead, List.splitOnP_cons_eq_if_modifyHead,
        hp, ih]
      split
      · rfl
      · cases rest.splitOnP p <;> rfl

end Runs

theorem meetsCased_toLower (cs : List Char) : meetsCased (cs.map Char.toLower) = meetsCased cs := by
  rw [meetsCased, meetsCased, dropWhile_toLower isCaseIgnorable_toLower]
  cases cs.dropWhile isCaseIgnorable with
  | nil => rfl
  | cons c rest => exact isCased_toLower c

theorem foldAfter_toLower (before cs : List Char) :
    foldAfter (before.map Char.toLower) (cs.map Char.toLower) = foldAfter before cs := by
  induction cs generalizing before with
  | nil => rfl
  | cons c rest ih =>
      have hsigma : c.toLower.toNat = 0x3A3 ↔ c.toNat = 0x3A3 := decide_eq_decide.mp
        (eq_toLower_of_capitals (f := fun c => decide (c.toNat = 0x3A3)) (by decide) c)
      have hrest := ih (c :: before)
      rw [List.map_cons] at hrest
      simp only [List.map_cons, foldAfter, hsigma, meetsCased_toLower, foldChar_toLower, hrest]

/-- The lowercase form of a text does not depend on its ASCII case. -/
theorem foldList_toLower (cs : List Char) : foldList (cs.map Char.toLower) = foldList cs :=
  foldAfter_toLower [] cs

theorem asciiFold_asciiFold (s : String) : asciiFold (asciiFold s) = asciiFold s := by
  rw [asciiFold, asciiFold, String.toList_ofList, List.map_map]
  exact congrArg String.ofList (List.map_congr_left fun c _ => toLower_toLower c)

/-! ## Variants of a text -/

/-- The same character, or an ASCII letter in its other case. -/
inductive CaseVariant : Char → Char → Prop
  | same (c : Char) : CaseVariant c c
  | small {n : Nat} (hletter : n < 26) : CaseVariant (Char.ofNat (65 + n)) (Char.ofNat (97 + n))
  | capital {n : Nat} (hletter : n < 26) : CaseVariant (Char.ofNat (97 + n)) (Char.ofNat (65 + n))

theorem caseVariant_iff {c d : Char} : CaseVariant c d ↔ c.toLower = d.toLower := by
  constructor
  · have hletters : ∀ n < 26, (Char.ofNat (65 + n)).toLower = (Char.ofNat (97 + n)).toLower := by
      decide
    intro hvariant
    cases hvariant with
    | same => rfl
    | small hletter => exact hletters _ hletter
    | capital hletter => exact (hletters _ hletter).symm
  · intro hlower
    rcases toLower_cases c with hc | ⟨n, hn, rfl, hc⟩ <;>
      rcases toLower_cases d with hd | ⟨m, hm, rfl, hd⟩
    · rw [← hc, hlower, hd]
      exact .same d
    · rw [← hc, hlower, hd]
      exact .capital hm
    · rw [← hd, ← hlower, hc]
      exact .small hn
    · have hsame : ∀ n < 26, ∀ m < 26, Char.ofNat (97 + n) = Char.ofNat (97 + m) → n = m := by
        decide
      rw [hc, hd] at hlower
      rw [hsame n hn m hm hlower]
      exact .same _

instance (c d : Char) : Decidable (CaseVariant c d) :=
  decidable_of_iff _ caseVariant_iff.symm

/-- Texts that differ in the ASCII case of their letters have one ASCII lowercase form. -/
theorem asciiFold_eq_of_variants {s other : String}
    (hvariants : List.Forall₂ CaseVariant s.toList other.toList) : asciiFold s = asciiFold other := by
  have hlists : ∀ {cs ds : List Char}, List.Forall₂ CaseVariant cs ds →
      cs.map Char.toLower = ds.map Char.toLower := by
    intro cs ds hlist
    induction hlist with
    | nil => rfl
    | cons hvariant _ ih => rw [List.map_cons, List.map_cons, caseVariant_iff.mp hvariant, ih]
  exact congrArg String.ofList (hlists hvariants)

end ComicCatalog.Text
