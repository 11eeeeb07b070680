import ComicCatalog.Proofs.Store.Answers

/-! # Columns that are tied to a value

A select that is answered finds the rows that meet all of its conditions, where a condition
on the lowercase form of a tied column is met by the value that ties it. This is no
different from looking at the rows where the value has the lowercase form of the stored
values that it equals.
-/

namespace ComicCatalog

/-- Whether the value of a row in a slot equals a text. -/
def Table.equalsAt (table : Table) (slot : Slot) (text : String) (row : Row) : Bool :=
  (table.operand? slot text).any (row.cell slot).equals

/-- Whether the value of a row in a column equals a text. -/
def Table.equalsIn (table : Table) (column text : String) (row : Row) : Bool :=
  (table.slot? column).any fun slot => table.equalsAt slot text row

/-- Whether a value passes a test that does not fail. -/
def Matcher.keeps (matcher : Matcher) (cell : Cell) : Bool :=
  match matcher.test cell with
  | .ok passing => passing
  | .error _ => false

namespace Matcher

theorem keeps_oneOf (values : List Cell) (cell : Cell) :
    (oneOf values).keeps cell = values.any cell.equals :=
  rfl

theorem keeps_oneOfFolded (values : List String) (cell : Cell) :
    (oneOfFolded values).keeps cell = cell.folded?.any values.contains := by
  rw [keeps, test]
  cases cell.folded? <;> rfl

theorem keeps_never (operand? : String → Option Cell) (folding : Bool) (cell : Cell) :
    (ofTest operand? (.oneOf []) folding).keeps cell = false := by
  cases folding with
  | false => rfl
  | true =>
      show (oneOfFolded []).keeps cell = false
      rw [keeps_oneOfFolded]
      cases cell.folded? <;> rfl

/-- A test on lowercase forms sees nothing else of a value. -/
theorem keeps_congr {operand? : String → Option Cell} {test : Test} {folding : Bool}
    (hfolds : folding = true ∨ ∃ needle, test = .contains needle) {cell other : Cell}
    (hsame : cell.folded? = other.folded?) :
    (ofTest operand? test folding).keeps cell = (ofTest operand? test folding).keeps other := by
  have hlike : ∀ matcher : Matcher, (∀ values, matcher ≠ .oneOf values) →
      matcher.keeps cell = matcher.keeps other := by
    intro matcher hmatcher
    cases matcher with
    | oneOf values => exact absurd rfl (hmatcher values)
    | never => rfl
    | tooComplex => rfl
    | oneOfFolded values => rw [keeps_oneOfFolded, keeps_oneOfFolded, hsame]
    | like pattern => simp only [keeps, Matcher.test, hsame]
  apply hlike
  intro values
  cases test with
  | contains needle =>
      unfold ofTest
      dsimp only
      split
      · simp
      · split <;> simp
  | equals value =>
      obtain rfl | ⟨needle, hneedle⟩ := hfolds
      · simp [ofTest]
      · cases hneedle
  | oneOf others =>
      obtain rfl | ⟨needle, hneedle⟩ := hfolds
      · simp [ofTest]
      · cases hneedle

end Matcher

namespace Database

variable {db : Database} {table : Table} {conditions : List Condition} {condition : Condition}
  {row : Row}

/-! ## The rows that are found -/

/-- Whether a row meets one of several conditions. -/
def meets (table : Table) (conditions : List Condition) (row : Row) (condition : Condition) : Bool :=
  (rowTest table condition).matcher.keeps
    ((deciding? table conditions condition).getD (row.cell (rowTest table condition).slot))

theorem filtered_eq_filter {tests : List RowTest} {rows found : List Row}
    (hfound : filtered tests rows = .ok found) :
    found = rows.filter fun row => tests.all fun test => test.matcher.keeps (row.cell test.slot) := by
  have hpasses : ∀ (row : Row) (tests : List RowTest) (kept : Bool), passes row tests = .ok kept →
      kept = tests.all fun test => test.matcher.keeps (row.cell test.slot) := by
    intro row tests kept hkept
    induction tests with
    | nil =>
        cases hkept
        rfl
    | cons test rest ih =>
        rw [passes] at hkept
        rw [List.all_cons, Matcher.keeps]
        split at hkept
        next => cases hkept
        next htest =>
          cases hkept
          rw [htest, Bool.false_and]
        next htest => rw [htest, Bool.true_and, ih hkept]
  induction rows generalizing found with
  | nil =>
      cases hfound
      rfl
  | cons row rest ih =>
      rw [filtered] at hfound
      split at hfound
      · cases hfound
      next kept hkept =>
        split at hfound
        · cases hfound
        next others hothers =>
          cases hfound
          rw [List.filter_cons, ← hpasses row tests kept hkept, ih hothers]

theorem decided_eq_all {considered : List Condition} {kept : Bool}
    (hdecided : decided table conditions considered = .ok kept) :
    kept = considered.all fun condition => (deciding? table conditions condition).all
      (rowTest table condition).matcher.keeps := by
  induction considered with
  | nil =>
      cases hdecided
      rfl
  | cons condition rest ih =>
      rw [decided] at hdecided
      rw [List.all_cons]
      split at hdecided
      next hnone => rw [hnone, Option.all_none, Bool.true_and, ih hdecided]
      next cell hcell =>
        rw [hcell, Option.all_some, Matcher.keeps]
        split at hdecided
        next => cases hdecided
        next htest =>
          cases hdecided
          rw [htest, Bool.false_and]
        next htest => rw [htest, Bool.true_and, ih hdecided]

/-- Some conditions are met before any row is looked at, the others by the row. -/
theorem all_meets (table : Table) (conditions : List Condition) (row : Row) :
    conditions.all (meets table conditions row) =
      ((conditions.all fun condition => (deciding? table conditions condition).all
        (rowTest table condition).matcher.keeps) &&
        (rowTests table conditions).all fun test => test.matcher.keeps (row.cell test.slot)) := by
  rw [Bool.eq_iff_iff]
  simp only [Bool.and_eq_true, List.all_eq_true, rowTests, List.forall_mem_map, List.mem_filter,
    and_imp, ← forall_and]
  refine forall_congr' fun condition => forall_congr' fun hcondition => ?_
  rw [meets]
  cases deciding? table conditions condition <;> simp

/-- A membership without values keeps nothing. -/
theorem not_meets_never (hnever : condition.test = .oneOf []) :
    meets table conditions row condition = false := by
  obtain ⟨column, test, folding⟩ := condition
  cases hnever
  unfold meets rowTest
  cases table.slot? column with
  | none => rfl
  | some slot => exact Matcher.keeps_never _ folding _

theorem selected_eq_filter {select : Select} (hlimit : select.limit = none) {found : List Row}
    (hfound : db.selected table select = .ok found) :
    found = (db.rows table).filter fun row =>
      select.conditions.all (meets table select.conditions row) := by
  unfold selected at hfound
  simp only [hlimit, reduceCtorEq, decide_false, Bool.or_false] at hfound
  split at hfound
  next hkeeps =>
    cases hfound
    simp only [Select.keepsNothing, List.any_eq_true, decide_eq_true_eq] at hkeeps
    obtain ⟨condition, hcondition, hnever⟩ := hkeeps
    symm
    rw [List.filter_eq_nil_iff]
    intro row _ hall
    have hmeets := List.all_eq_true.mp hall condition hcondition
    rw [not_meets_never hnever] at hmeets
    cases hmeets
  next =>
    simp only [all_meets]
    split at hfound
    next => cases hfound
    next hdecided =>
      cases hfound
      rw [← decided_eq_all hdecided]
      simp
    next hdecided =>
      rw [← decided_eq_all hdecided]
      simpa using filtered_eq_filter hfound

/-! ## Conditions on the column as it is -/

theorem deciding?_of_not_folds (hfolds : condition.folds = false) :
    deciding? table conditions condition = none := by
  rw [deciding?, hfolds]
  rfl

/-- A membership is met by a row whose value equals one of the texts. -/
theorem meets_oneOf (table : Table) (conditions : List Condition) (row : Row) (column : String)
    (values : List String) :
    meets table conditions row (.oneOf column values) =
      values.any fun text => table.equalsIn column text row := by
  have hdeciding : deciding? table conditions (.oneOf column values) = none :=
    deciding?_of_not_folds rfl
  rw [meets, hdeciding, Option.getD_none]
  cases hslot : table.slot? column with
  | none => simp [rowTest, Condition.oneOf, hslot, Table.equalsIn, Matcher.keeps, Matcher.test]
  | some slot =>
      simp only [rowTest, Condition.oneOf, hslot, Table.equalsIn, Option.any_some]
      show (Matcher.oneOf (values.filterMap (table.operand? slot))).keeps (row.cell slot) = _
      rw [Matcher.keeps_oneOf, List.any_filterMap]
      rfl

/-- A condition that ties its column is a membership in a list of one text. -/
theorem meets_tie (table : Table) (conditions : List Condition) (row : Row) {text : String}
    (htie : condition.tie? = some text) :
    condition.folds = false ∧
      meets table conditions row condition = table.equalsIn condition.column text row := by
  obtain ⟨column, test, folding⟩ := condition
  have hmember := meets_oneOf table conditions row column [text]
  rw [List.any_cons, List.any_nil, Bool.or_false] at hmember
  cases folding with
  | true => cases htie
  | false =>
      cases test with
      | contains needle => cases htie
      | equals value =>
          cases htie
          exact ⟨rfl, hmember⟩
      | oneOf values =>
          cases values with
          | nil => cases htie
          | cons value rest =>
              cases rest with
              | nil =>
                  cases htie
                  exact ⟨rfl, hmember⟩
              | cons next others => cases htie

/-! ## Ties -/

/-- A membership ties its column to an only text. -/
theorem tie?_oneOf {column text : String} {values : List String}
    (htie : (Condition.oneOf column values).tie? = some text) : values = [text] := by
  cases values with
  | nil => cases htie
  | cons value rest =>
      cases rest with
      | nil =>
          cases htie
          rfl
      | cons next others => cases htie

theorem tied?_append (table : Table) (conditions : List Condition) (condition : Condition) (slot : Slot) :
    tied? table (conditions ++ [condition]) slot =
      ((if table.slot? condition.column = some slot then
        condition.tie?.map fun text => Cell.stored (table.affinity slot) (.ofText text)
      else none).or (tied? table conditions slot)) := by
  rw [tied?, List.reverse_append, List.reverse_singleton, List.singleton_append,
    List.findSome?_cons]
  split
  next cell hcell => rw [hcell, Option.some_or]
  next hnone =>
    rw [hnone, Option.none_or]
    rfl

/-- A further condition that ties no column, or another one, changes nothing. -/
theorem tied?_append_of_untied {slot : Slot}
    (huntied : condition.tie? = none ∨ table.slot? condition.column ≠ some slot) :
    tied? table (conditions ++ [condition]) slot = tied? table conditions slot := by
  rw [tied?_append]
  rcases huntied with htie | hslot
  · rw [htie, Option.map_none, ite_self, Option.none_or]
  · rw [if_neg hslot, Option.none_or]

theorem exists_of_tied? {slot : Slot} {cell : Cell} (htied : tied? table conditions slot = some cell) :
    ∃ condition ∈ conditions, table.slot? condition.column = some slot ∧
      ∃ text, condition.tie? = some text ∧
        cell = Cell.stored (table.affinity slot) (.ofText text) := by
  obtain ⟨condition, hcondition, hcell⟩ := List.exists_of_findSome?_eq_some htied
  split at hcell
  next hslot =>
    obtain ⟨text, htie, rfl⟩ := Option.map_eq_some_iff.mp hcell
    exact ⟨condition, List.mem_reverse.mp hcondition, hslot, text, htie, rfl⟩
  next => cases hcell

/-- What conditions on lowercase forms see of a row in a slot. -/
def seen (table : Table) (conditions : List Condition) (row : Row) (slot : Slot) : Option String :=
  ((tied? table conditions slot).getD (row.cell slot)).folded?

/-- They see the stored value where every value that ties the slot has its lowercase form. -/
theorem seen_eq {slot : Slot}
    (halike : ∀ condition ∈ conditions, table.slot? condition.column = some slot →
      ∀ text, condition.tie? = some text →
        (Cell.stored (table.affinity slot) (.ofText text)).folded? = (row.cell slot).folded?) :
    seen table conditions row slot = (row.cell slot).folded? := by
  unfold seen
  cases htied : tied? table conditions slot with
  | none => rfl
  | some cell =>
      obtain ⟨condition, hcondition, hslot, text, htie, rfl⟩ := exists_of_tied? htied
      exact halike condition hcondition hslot text htie

/-- A condition is met alike among others that make it see the same. -/
theorem meets_congr {others : List Condition}
    (hseen : condition.folds = true → ∀ slot, table.slot? condition.column = some slot →
      seen table conditions row slot = seen table others row slot) :
    meets table conditions row condition = meets table others row condition := by
  cases hfolds : condition.folds with
  | false => rw [meets, meets, deciding?_of_not_folds hfolds, deciding?_of_not_folds hfolds]
  | true =>
      rw [meets, meets, deciding?, deciding?, hfolds]
      cases hslot : table.slot? condition.column with
      | none => rfl
      | some slot =>
          have hkind : condition.folding = true ∨ ∃ needle, condition.test = .contains needle := by
            obtain ⟨column, test, folding⟩ := condition
            cases test <;> simp_all [Condition.folds, Condition.isPattern]
          simp only [rowTest, hslot, if_true, Option.bind_some]
          exact Matcher.keeps_congr hkind (hseen hfolds slot hslot)

/-- Conditions are met alike where those on the columns as they are being met is enough for
the others to see the same. -/
theorem all_meets_congr {others considered : List Condition}
    (hseen : (∀ condition ∈ considered, condition.folds = false →
        meets table conditions row condition = true) →
      ∀ condition ∈ considered, condition.folds = true → ∀ slot,
        table.slot? condition.column = some slot →
          seen table conditions row slot = seen table others row slot) :
    considered.all (meets table conditions row) = considered.all (meets table others row) := by
  have hplain : ∀ condition : Condition, condition.folds = false →
      meets table conditions row condition = meets table others row condition := by
    intro condition hfolds
    apply meets_congr
    simp [hfolds]
  by_cases hmet : ∀ condition ∈ considered, condition.folds = false →
      meets table conditions row condition = true
  · rw [Bool.eq_iff_iff, List.all_eq_true, List.all_eq_true]
    refine forall₂_congr fun condition hcondition => ?_
    rw [meets_congr (hseen hmet condition hcondition)]
  · -- One of them fails either way.
    push Not at hmet
    obtain ⟨condition, hcondition, hfolds, hfails⟩ := hmet
    have hnone : considered.all (meets table conditions row) = false :=
      List.all_eq_false.mpr ⟨condition, hcondition, by simpa using hfails⟩
    have hnone' : considered.all (meets table others row) = false :=
      List.all_eq_false.mpr ⟨condition, hcondition, by simpa [← hplain condition hfolds] using hfails⟩
    rw [hnone, hnone']

end Database

end ComicCatalog
