import ComicCatalog.Proofs.Text.Folding
import ComicCatalog.Store.Answer

/-! # Substring tests

What the pattern of a substring test finds. The pattern is anything, the escaped text
and anything, so it finds the text itself, with two provisos of the database: a text
ends at its first NUL, which also takes the pattern's closing part away, and the two
noncharacters at the end of the basic plane are read as replacement characters.
-/

namespace ComicCatalog

namespace Pattern

open Text (isSpecial escapePattern_cons)

/-- A text as patterns see it contains another. Where the text that is looked for has
a NUL, the part before it must stand at the end. -/
def Finds (needle text : List Char) : Prop :=
  if '\x00' ∈ needle then units needle <:+ units text else units needle <:+: units text

/-- A character that patterns see as it is. -/
def IsSeen (c : Char) : Prop :=
  c.toNat ≠ 0 ∧ c.toNat ≠ 0xFFFE ∧ c.toNat ≠ 0xFFFF

theorem toNat_eq_zero {c : Char} : c.toNat = 0 ↔ c = '\x00' := by
  constructor
  · intro hzero
    exact Char.toNat_inj.mp hzero
  · rintro rfl
    rfl

theorem units_cons (c : Char) (cs : List Char) :
    units (c :: cs) = if c = '\x00' then [] else unit c :: units cs := by
  by_cases hc : c = '\x00'
  · simp [units, hc]
  · have hne : c.toNat ≠ 0 := fun hzero => hc (toNat_eq_zero.mp hzero)
    simp [units, hc, hne]

theorem unit_of_isSeen {c : Char} (hseen : IsSeen c) : unit c = c := by
  rw [unit, if_neg]
  rintro (hfirst | hsecond)
  · exact hseen.2.1 hfirst
  · exact hseen.2.2 hsecond

theorem map_unit_of_isSeen {cs : List Char} (hseen : ∀ c ∈ cs, IsSeen c) : cs.map unit = cs :=
  (List.map_congr_left fun c hc => unit_of_isSeen (hseen c hc)).trans (List.map_id' cs)

theorem units_of_no_nul {cs : List Char} (hnul : '\x00' ∉ cs) : units cs = cs.map unit := by
  induction cs with
  | nil => rfl
  | cons c rest ih =>
      have hc : c ≠ '\x00' := fun hc => hnul (hc ▸ List.mem_cons_self)
      rw [units_cons, if_neg hc, ih fun hrest => hnul (List.mem_cons_of_mem c hrest), List.map_cons]

theorem units_of_isSeen {cs : List Char} (hseen : ∀ c ∈ cs, IsSeen c) : units cs = cs := by
  have hnul : '\x00' ∉ cs := fun hmem => (hseen _ hmem).1 rfl
  rw [units_of_no_nul hnul, map_unit_of_isSeen hseen]

/-- Among characters that are seen as they are, a text is found where it stands. -/
theorem finds_iff_infix {needle text : List Char} (hneedle : ∀ c ∈ needle, IsSeen c)
    (htext : ∀ c ∈ text, IsSeen c) : Finds needle text ↔ needle <:+: text := by
  have hnul : '\x00' ∉ needle := fun hmem => (hneedle _ hmem).1 rfl
  rw [Finds, if_neg hnul, units_of_isSeen hneedle, units_of_isSeen htext]

/-- Every text is found in itself. -/
theorem finds_self (cs : List Char) : Finds cs cs := by
  unfold Finds
  split
  · exact List.suffix_refl _
  · exact List.infix_refl _

/-! ## The elements of a pattern -/

theorem unit_of_special {c : Char} (hspecial : isSpecial c = true) : unit c = c := by
  simp only [isSpecial, Bool.or_eq_true, beq_iff_eq] at hspecial
  rcases hspecial with (rfl | rfl) | rfl <;> decide

theorem unit_not_special {c : Char} (hspecial : isSpecial c = false) : isSpecial (unit c) = false := by
  unfold unit
  split
  · decide
  · exact hspecial

/-- Escaping does not move the end of a text; behind a NUL nothing is left. -/
theorem units_escaped (cs : List Char) :
    units (escapePattern cs ++ ['%']) =
      escapePattern (units cs) ++ if '\x00' ∈ cs then [] else ['%'] := by
  induction cs with
  | nil => decide
  | cons c rest ih =>
      rw [escapePattern_cons, units_cons]
      cases hc : isSpecial c with
      | true =>
          have hnul : c ≠ '\x00' := by
            rintro rfl
            exact absurd hc (by decide)
          have hslash : unit '\\' = '\\' := by decide
          simp [units_cons, hnul, hslash, unit_of_special hc, ih, escapePattern_cons, hc, hnul.symm]
      | false =>
          by_cases hnul : c = '\x00'
          · simp [units_cons, hnul, escapePattern]
          · simp [units_cons, hnul, ih, escapePattern_cons, unit_not_special hc, Ne.symm hnul]

/-- Escaped characters are the elements they stand for. -/
theorem elements?_escaped (cs tail : List Char) :
    elements? (escapePattern cs ++ tail) =
      (elements? tail).map (cs.map PatternElement.literal ++ ·) := by
  induction cs with
  | nil => simp [escapePattern]
  | cons c rest ih =>
      rw [escapePattern_cons]
      cases hc : isSpecial c with
      | true =>
          simp only [if_true, List.cons_append, List.nil_append, elements?, ih]
          cases elements? tail <;> rfl
      | false =>
          simp only [isSpecial, Bool.or_eq_false_iff, beq_eq_false_iff_ne] at hc
          simp only [Bool.false_eq_true, if_false, List.cons_append, List.nil_append]
          rw [elements?.eq_def]
          split
          all_goals simp_all
          cases elements? tail <;> rfl

/-- The pattern of a substring test tells what is looked for. -/
theorem substringPattern_injective : Function.Injective substringPattern := by
  intro needle other hsame
  have hescaped : escapePattern needle.toList ++ ['%'] = escapePattern other.toList ++ ['%'] :=
    (List.cons.inj (String.ofList_injective hsame)).2
  have helements := congrArg elements? hescaped
  rw [elements?_escaped, elements?_escaped] at helements
  have hliterals : needle.toList.map PatternElement.literal ++ [.anyRun] =
      other.toList.map PatternElement.literal ++ [.anyRun] := Option.some.inj helements
  apply String.toList_inj.mp
  exact List.map_injective_iff.mpr (fun _ _ => PatternElement.literal.inj)
    (List.append_cancel_right hliterals)

/-! ## What patterns accept -/

theorem accepts_literals (needle cs : List Char) :
    accepts (needle.map .literal) cs = true ↔ needle = cs := by
  induction needle generalizing cs with
  | nil => cases cs <;> simp [accepts]
  | cons c rest ih => cases cs <;> simp [accepts, ih]

theorem accepts_anyRun_alone (cs : List Char) : accepts [.anyRun] cs = true := by
  induction cs with
  | nil => simp [accepts]
  | cons c rest ih => simp [accepts, ih]

theorem accepts_literals_anyRun (needle cs : List Char) :
    accepts (needle.map .literal ++ [.anyRun]) cs = true ↔ needle <+: cs := by
  induction needle generalizing cs with
  | nil => simp [accepts_anyRun_alone]
  | cons c rest ih =>
      cases cs with
      | nil => simp [accepts]
      | cons d others => simp [accepts, ih, List.cons_prefix_cons]

/-- A run of any characters leaves some end of the text to the rest of the pattern. -/
theorem accepts_anyRun (pattern : List PatternElement) (cs : List Char) :
    accepts (.anyRun :: pattern) cs = true ↔ ∃ tail, tail <:+ cs ∧ accepts pattern tail = true := by
  induction cs with
  | nil => simp [accepts]
  | cons c rest ih =>
      rw [accepts, Bool.or_eq_true, ih]
      constructor
      · rintro (hwhole | ⟨tail, hsuffix, htail⟩)
        · exact ⟨c :: rest, List.suffix_refl _, hwhole⟩
        · exact ⟨tail, hsuffix.trans (List.suffix_cons c rest), htail⟩
      · rintro ⟨tail, hsuffix, htail⟩
        rcases List.suffix_cons_iff.mp hsuffix with rfl | hsuffix
        · exact Or.inl htail
        · exact Or.inr ⟨tail, hsuffix, htail⟩

/-- The pattern of a substring test has elements, and they accept what it finds. -/
theorem elements?_substring (needle : List Char) :
    ∃ elements, elements? (units ('%' :: (escapePattern needle ++ ['%']))) = some elements ∧
      ∀ cs, accepts elements (units cs) = true ↔ Finds needle cs := by
  have hpercent : units ('%' :: (escapePattern needle ++ ['%'])) =
      '%' :: units (escapePattern needle ++ ['%']) := by
    rw [units_cons]
    rfl
  rw [hpercent, units_escaped]
  -- Behind a NUL the closing part is cut off, so the rest must stand at the end of the text.
  by_cases hnul : '\x00' ∈ needle
  · refine ⟨.anyRun :: (units needle).map .literal, ?_, ?_⟩
    · rw [if_pos hnul, elements?, elements?_escaped]
      simp [elements?]
    · intro cs
      rw [accepts_anyRun, Finds, if_pos hnul]
      constructor
      · rintro ⟨tail, hsuffix, htail⟩
        rwa [(accepts_literals _ _).mp htail]
      · intro hsuffix
        exact ⟨units needle, hsuffix, (accepts_literals _ _).mpr rfl⟩
  · refine ⟨.anyRun :: ((units needle).map .literal ++ [.anyRun]), ?_, ?_⟩
    · simp [hnul, elements?, elements?_escaped]
    · intro cs
      rw [accepts_anyRun, Finds, if_neg hnul, List.infix_iff_prefix_suffix]
      constructor
      · rintro ⟨tail, hsuffix, htail⟩
        exact ⟨tail, (accepts_literals_anyRun _ _).mp htail, hsuffix⟩
      · rintro ⟨tail, hprefix, hsuffix⟩
        exact ⟨tail, hsuffix, (accepts_literals_anyRun _ _).mpr hprefix⟩

end Pattern

/-- The pattern of a substring test is not too long for the database. -/
def Pattern.IsShort (needle : String) : Prop :=
  (Text.fold (substringPattern needle)).utf8ByteSize ≤ maxBytes

/-- The pattern is put into lowercase as a whole, so the text may already be. -/
theorem Pattern.isShort_fold {needle : String} : IsShort (Text.fold needle) ↔ IsShort needle := by
  have hsame : Text.fold (substringPattern (Text.fold needle)) = Text.fold (substringPattern needle) := by
    rw [← String.toList_inj, Text.toList_fold_substringPattern, Text.toList_fold_substringPattern,
      Text.toList_fold, Text.foldList_foldList]
  rw [IsShort, IsShort, hsame]

/-- A substring test that is not too long finds the lowercase text in the lowercase form
of a value. -/
theorem Matcher.ofTest_contains_of_isShort (operand? : String → Option Cell) {needle : String}
    (hshort : Pattern.IsShort needle) (folding : Bool) :
    ∃ elements, ofTest operand? (.contains needle) folding = .like elements ∧
      ∀ cs, Pattern.accepts elements (Pattern.units cs) = true ↔
        Pattern.Finds (Text.foldList needle.toList) cs := by
  obtain ⟨elements, helements, haccepts⟩ := Pattern.elements?_substring (Text.foldList needle.toList)
  refine ⟨elements, ?_, haccepts⟩
  unfold ofTest
  dsimp only
  rw [if_neg (Nat.not_lt.mpr hshort), Text.toList_fold_substringPattern, helements]

theorem Matcher.ofTest_contains_of_not_isShort (operand? : String → Option Cell) {needle : String}
    (hlong : ¬ Pattern.IsShort needle) (folding : Bool) :
    ofTest operand? (.contains needle) folding = .tooComplex := by
  unfold ofTest
  dsimp only
  rw [if_pos (Nat.lt_of_not_le hlong)]

end ComicCatalog
