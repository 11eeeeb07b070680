import ComicCatalog.Proofs.Store.Answers
import ComicCatalog.Proofs.Store.Patterns
import ComicCatalog.Proofs.Text.Bytes
import ComicCatalog.Proofs.Text.Casing
import ComicCatalog.Proofs.Text.Places
import ComicCatalog.Store.Sample

/-! # Selects of a substring

A substring test keeps the rows whose lowercase value has the lowercase text that is
looked for, whatever wildcards stand in either. Patterns take the two noncharacters at the
end of the basic plane for replacement characters, so there a test can keep more. A text
that stands in a value as it is written is found unless a capital sigma ends the text but
not the value, or the other way round: then the two are not folded alike.
-/

namespace ComicCatalog

/-! ## Texts that patterns tell apart -/

namespace Pattern

open Text (foldList mem_of_mem_foldList)

/-- Patterns do not confuse the characters of two texts: they see those of the first as they
are, and those of the second too, if the first has the replacement character, which is what
they take other characters for. -/
structure TellsApart (needle text : List Char) : Prop where
  seen : ∀ c ∈ needle, IsSeen c
  others : Bytes.replacement ∈ needle → ∀ c ∈ text, IsSeen c

variable {needle text : List Char}

theorem isLone_of_not_isSeen {c : Char} (hunseen : ¬ IsSeen c) : Text.IsLone c := by
  unfold IsSeen at hunseen
  unfold Text.IsLone
  omega

theorem unit_of_ne_replacement {c : Char} (hunit : unit c ≠ Bytes.replacement) : unit c = c := by
  unfold unit at hunit ⊢
  split at hunit
  · exact absurd rfl hunit
  next hnot => rw [if_neg hnot]

/-- Without NUL, patterns find a text wherever they see it stand. -/
theorem finds_iff_map_infix (hneedle : '\x00' ∉ needle) (htext : '\x00' ∉ text) :
    Finds needle text ↔ needle.map unit <:+: text.map unit := by
  rw [Finds, if_neg hneedle, units_of_no_nul hneedle, units_of_no_nul htext]

/-- What patterns tell apart, they see exactly where it stands. -/
theorem TellsApart.map_infix_iff (happart : TellsApart needle text) :
    needle.map unit <:+: text.map unit ↔ needle <:+: text := by
  constructor
  · rw [map_unit_of_isSeen happart.seen]
    by_cases hreplacement : Bytes.replacement ∈ needle
    · rw [map_unit_of_isSeen (happart.others hreplacement)]
      exact id
    · intro hstands
      obtain ⟨piece, hpiece, hneedle⟩ := List.infix_map_iff.mp hstands
      -- The piece that is taken for the text has no noncharacter, so it is the text.
      have hsame : piece.map unit = piece := by
        refine (List.map_congr_left fun c hc => ?_).trans (List.map_id' piece)
        apply unit_of_ne_replacement
        intro hunit
        rw [hneedle, ← hunit] at hreplacement
        exact hreplacement (List.mem_map_of_mem hc)
      rwa [hneedle, hsame]
  · intro hstands
    exact hstands.map unit

/-- Texts that patterns tell apart are told apart in lowercase. -/
theorem TellsApart.foldList (happart : TellsApart needle text) :
    TellsApart (foldList needle) (foldList text) := by
  have hseen : ∀ cs : List Char, (∀ c ∈ cs, IsSeen c) → ∀ c ∈ Text.foldList cs, IsSeen c := by
    intro cs hcs c hc
    by_contra hunseen
    exact hunseen (hcs c (mem_of_mem_foldList (isLone_of_not_isSeen hunseen) hc))
  refine ⟨hseen needle happart.seen, fun hreplacement => hseen text (happart.others ?_)⟩
  refine mem_of_mem_foldList ?_ hreplacement
  unfold Text.IsLone
  decide

theorem nul_not_mem_foldList {cs : List Char} (hnul : '\x00' ∉ cs) : '\x00' ∉ Text.foldList cs :=
  fun hmem => hnul (mem_of_mem_foldList (Or.inl rfl) hmem)

end Pattern

/-! ## Values and columns -/

/-- Patterns find a text in the lowercase form of a value. -/
def Cell.Finds (needle : String) (cell : Cell) : Prop :=
  ∃ value, cell.folded? = some value ∧
    Pattern.Finds (Text.foldList needle.toList) value.toList

theorem Cell.finds_text {needle : String} {bytes : Bytes} (hneedle : '\x00' ∉ needle.toList)
    (hvalue : '\x00' ∉ (Bytes.text bytes).toList) :
    (Cell.text bytes).Finds needle ↔
      (Text.foldList needle.toList).map Pattern.unit <:+:
        (Text.foldList (Bytes.text bytes).toList).map Pattern.unit := by
  rw [← Pattern.finds_iff_map_infix (Pattern.nul_not_mem_foldList hneedle)
    (Pattern.nul_not_mem_foldList hvalue), ← Text.toList_fold (Bytes.text bytes)]
  simp only [Finds, folded?, Option.some.injEq, exists_eq_left']

/-- The test for a text that is not too long never fails, and a value passes if patterns
find the text in it. -/
theorem Matcher.exists_passing (operand? : String → Option Cell) {needle : String}
    (hshort : Pattern.IsShort needle) (folding : Bool) :
    ∃ passing : Cell → Bool, (∀ cell, passing cell = true ↔ cell.Finds needle) ∧
      ∀ cell, (ofTest operand? (.contains needle) folding).test cell = .ok (passing cell) := by
  obtain ⟨elements, hlike, haccepts⟩ := ofTest_contains_of_isShort operand? hshort folding
  refine ⟨fun cell => cell.folded?.elim false fun value =>
    Pattern.accepts elements (Pattern.units value.toList), ?_, ?_⟩
  · intro cell
    unfold Cell.Finds
    dsimp only
    cases cell.folded? with
    | none => simp
    | some value => simp [haccepts]
  · intro cell
    dsimp only
    rw [hlike, test]
    cases cell.folded? <;> rfl

theorem isIdentifier_asciiFold (name : String) :
    isIdentifier (Text.asciiFold name) = isIdentifier name := by
  have hfirst (c : Char) : (c.toLower.isAlpha || c.toLower = '_') = (c.isAlpha || c = '_') :=
    Text.eq_toLower_of_capitals (f := fun c => c.isAlpha || c = '_') (by decide) c
  have hrest (c : Char) : (c.toLower.isAlphanum || c.toLower = '_') = (c.isAlphanum || c = '_') :=
    Text.eq_toLower_of_capitals (f := fun c => c.isAlphanum || c = '_') (by decide) c
  rw [isIdentifier, isIdentifier, Text.asciiFold, String.toList_ofList]
  cases name.toList with
  | nil => rfl
  | cons first rest => simp only [List.map_cons, hfirst, List.all_map, Function.comp_def, hrest]

/-- The columns of the tables have plain names. -/
theorem Table.isIdentifier_of_slot? {table : Table} {column : String} {slot : Slot}
    (hslot : table.slot? column = some slot) : isIdentifier column = true := by
  have hcolumns : ∀ column ∈ table.columns, isIdentifier column.name = true := by
    cases table with
    | works => decide
    | names facet => cases facet <;> decide
    | links facet => cases facet <;> decide
  rw [← isIdentifier_asciiFold]
  simp only [slot?] at hslot
  split at hslot
  next index hindex =>
    obtain ⟨hlt, hname, -⟩ := List.findIdx?_eq_some_iff_getElem.mp hindex
    rw [← beq_iff_eq.mp hname]
    exact hcolumns _ (List.getElem_mem hlt)
  next =>
    split at hslot
    next hkey =>
      simp only [Bool.or_eq_true, Bool.and_eq_true, beq_iff_eq] at hkey
      rcases hkey with ((⟨-, hname⟩ | hname) | hname) | hname
      all_goals
        rw [hname]
        decide
    next => cases hslot

namespace Database

variable {db : Database} {table : Table} {select : Select} {column needle : String} {slot : Slot}

/-- A select for a text that is not too long is answered with the rows that have it. -/
theorem answer_contains (hasks : select.Asks table) (hconditions : select.conditions = [])
    (hlimit : select.limit = none) (hslot : table.slot? column = some slot)
    (hshort : Pattern.IsShort needle) :
    ∃ passing : Row → Bool, (∀ row, passing row = true ↔ (row.cell slot).Finds needle) ∧
      (∀ row, passes row [rowTest table (.contains column needle)] = .ok (passing row)) ∧
      db.answer (select.filtered (.contains column needle)) =
        .ok ((sorted table (select.filtered (.contains column needle))
          ((db.rows table).filter passing)).map
          (record table (asked table select))) := by
  obtain ⟨passing, hpassing, htest⟩ := Matcher.exists_passing (table.operand? slot) hshort true
  have hbound : (Condition.contains column needle).bound.length ≤ Statement.maxValues :=
    (by decide : 1 ≤ Statement.maxValues)
  refine ⟨fun row => passing (row.cell slot), fun row => hpassing (row.cell slot), ?_, ?_⟩
  · intro row
    simp only [rowTest, Condition.contains, hslot, passes, htest]
    cases passing (row.cell slot) <;> rfl
  · exact answer_filtered (.contains column needle) hasks hconditions hlimit hbound
      (Table.isIdentifier_of_slot? hslot) hslot (by simp [Condition.contains])
      fun row _ => htest (row.cell slot)

/-- A substring test never fails if its pattern is not too long. It keeps the rows whose
lowercase value has the lowercase text as patterns see both, which is every row that has
it, and no other row as long as patterns tell the two texts apart. -/
theorem contains_keeps_folded_substrings (hasks : select.Asks table)
    (hconditions : select.conditions = []) (hlimit : select.limit = none)
    (hslot : table.slot? column = some slot) (hshort : Pattern.IsShort needle)
    (hneedle : '\x00' ∉ needle.toList) :
    ∃ passing : Row → Bool,
      (∀ row, passes row [rowTest table (.contains column needle)] = .ok (passing row)) ∧
      db.answer (select.filtered (.contains column needle)) =
        .ok ((sorted table (select.filtered (.contains column needle))
          ((db.rows table).filter passing)).map
          (record table (asked table select))) ∧
      ∀ row bytes, row.cell slot = .text bytes → '\x00' ∉ (Bytes.text bytes).toList →
        (passing row = true ↔ (Text.foldList needle.toList).map Pattern.unit <:+:
          (Text.foldList (Bytes.text bytes).toList).map Pattern.unit) ∧
        (Text.foldList needle.toList <:+: Text.foldList (Bytes.text bytes).toList →
          passing row = true) ∧
        (Pattern.TellsApart needle.toList (Bytes.text bytes).toList →
          (passing row = true ↔
            Text.foldList needle.toList <:+: Text.foldList (Bytes.text bytes).toList)) := by
  obtain ⟨passing, hpassing, hpasses, hanswer⟩ :=
    db.answer_contains hasks hconditions hlimit hslot hshort
  refine ⟨passing, hpasses, hanswer, ?_⟩
  intro row bytes hcell hvalue
  have hunits : passing row = true ↔ (Text.foldList needle.toList).map Pattern.unit <:+:
      (Text.foldList (Bytes.text bytes).toList).map Pattern.unit := by
    rw [hpassing, hcell, Cell.finds_text hneedle hvalue]
  refine ⟨hunits, fun hstands => hunits.mpr (hstands.map Pattern.unit), ?_⟩
  intro happart
  rw [hunits, happart.foldList.map_infix_iff]

/-- A database of one work. -/
def ofTitle (title : String) : Database :=
  ⟨[(.works, [sampleWork 1 title "el" 20 0 none])], true⟩

/-- Wildcards in the text and in the title, and a final sigma. -/
theorem contains_keeps_folded_substrings_wildcards :
    ∃ passing : Row → Bool,
      (ofTitle "100%_ ΟΔΟΣ\\").answer ((Select.all "manga").filtered (.contains "title" "%_ οδος\\")) =
        .ok (((ofTitle "100%_ ΟΔΟΣ\\").rows .works |>.filter passing).map
          (record .works Table.works.slots)) ∧
      passing (sampleWork 1 "100%_ ΟΔΟΣ\\" "el" 20 0 none) = true := by
  have hname : isIdentifier "manga" = true := by decide
  have htable : Table.named? "manga" = some .works := by decide
  have hslot : Table.works.slot? "title" = some (.column 0) := by decide
  have hshort : Pattern.IsShort "%_ οδος\\" := by
    unfold Pattern.IsShort
    decide
  obtain ⟨passing, -, hanswer, hrows⟩ := @contains_keeps_folded_substrings
    (ofTitle "100%_ ΟΔΟΣ\\") _ _ _ _ _ (Select.asks_all hname htable) rfl rfl hslot hshort (by decide)
  obtain ⟨-, hkept, -⟩ := hrows (sampleWork 1 "100%_ ΟΔΟΣ\\" "el" 20 0 none) _ rfl
    (by rw [Bytes.text_ofText]; decide)
  refine ⟨passing, hanswer, hkept ?_⟩
  rw [Bytes.text_ofText]
  decide +kernel

/-- A select for a text that stands in a value as it is written is answered. The row is
found where the lowercase texts stand as the texts do, so whenever some occurrence has its
capital sigmas final exactly if they are in the text alone. -/
theorem contains_keeps_written_substrings (hasks : select.Asks table)
    (hconditions : select.conditions = []) (hlimit : select.limit = none)
    (hslot : table.slot? column = some slot) (hshort : Pattern.IsShort needle) {row : Row}
    (hrow : row ∈ db.rows table) {bytes : Bytes} (hcell : row.cell slot = .text bytes)
    (hvalue : '\x00' ∉ (Bytes.text bytes).toList)
    (hwritten : needle.toList <:+: (Bytes.text bytes).toList) :
    ∃ found : List Row,
      db.answer (select.filtered (.contains column needle)) =
        .ok (found.map (record table (asked table select))) ∧
      (row ∈ found ↔ (Text.foldList needle.toList).map Pattern.unit <:+:
        (Text.foldList (Bytes.text bytes).toList).map Pattern.unit) ∧
      (∀ front behind, (Bytes.text bytes).toList = front ++ needle.toList ++ behind →
        (⟨front.reverse, behind⟩ : Text.Place).Agrees .alone needle.toList → row ∈ found) ∧
      (Text.capitalSigma ∉ needle.toList → row ∈ found) := by
  obtain ⟨passing, hpassing, -, hanswer⟩ :=
    db.answer_contains hasks hconditions hlimit hslot hshort
  have hneedle : '\x00' ∉ needle.toList := fun hnul => hvalue (hwritten.subset hnul)
  have hfound : row ∈ sorted table (select.filtered (.contains column needle))
          ((db.rows table).filter passing) ↔
      (Text.foldList needle.toList).map Pattern.unit <:+:
        (Text.foldList (Bytes.text bytes).toList).map Pattern.unit := by
    rw [(perm_sorted _ _).mem_iff, List.mem_filter, and_iff_right hrow, hpassing, hcell,
      Cell.finds_text hneedle hvalue]
  have hplaced : ∀ front behind, (Bytes.text bytes).toList = front ++ needle.toList ++ behind →
      (⟨front.reverse, behind⟩ : Text.Place).Agrees .alone needle.toList →
        row ∈ sorted table (select.filtered (.contains column needle))
          ((db.rows table).filter passing) := by
    intro front behind hsplit hagrees
    rw [hfound, hsplit]
    exact (Text.Place.foldList_infix_of_agrees hagrees).map Pattern.unit
  refine ⟨_, hanswer, hfound, hplaced, ?_⟩
  intro hsigma
  obtain ⟨front, behind, hsplit⟩ := hwritten
  exact hplaced front behind hsplit.symm (Text.Place.agrees_of_not_mem hsigma)

/-- The sigma that ends a word in the text ends it in the title too. -/
theorem contains_keeps_written_substrings_sigma :
    ∃ found : List Row,
      (ofTitle "ΟΔΟΣ 7").answer ((Select.all "manga").filtered (.contains "title" "ΔΟΣ")) =
        .ok (found.map (record .works Table.works.slots)) ∧
      sampleWork 1 "ΟΔΟΣ 7" "el" 20 0 none ∈ found := by
  have hname : isIdentifier "manga" = true := by decide
  have htable : Table.named? "manga" = some .works := by decide
  have hslot : Table.works.slot? "title" = some (.column 0) := by decide
  have hshort : Pattern.IsShort "ΔΟΣ" := by
    unfold Pattern.IsShort
    decide +kernel
  have hrow : sampleWork 1 "ΟΔΟΣ 7" "el" 20 0 none ∈ (ofTitle "ΟΔΟΣ 7").rows .works :=
    List.mem_cons_self
  obtain ⟨found, hanswer, hfound, -⟩ := contains_keeps_written_substrings
    (Select.asks_all hname htable) rfl rfl hslot hshort hrow rfl
    (by rw [Bytes.text_ofText]; decide) (by rw [Bytes.text_ofText]; decide)
  refine ⟨found, hanswer, hfound.mpr ?_⟩
  rw [Bytes.text_ofText]
  decide +kernel

/-- A sigma that ends the text but not the word is not found in it. -/
example : ¬ Text.foldList "ΑΣ".toList <:+: Text.foldList "ΑΣΑ".toList := by decide +kernel

end Database

end ComicCatalog
