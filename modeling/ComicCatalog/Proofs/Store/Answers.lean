import ComicCatalog.Store.Answer
import Mathlib.Data.List.Basic
import Mathlib.Data.List.Perm.Subperm
import Mathlib.Tactic.Tauto

/-! # Answers of a database

A select of known tables and columns that binds no more values than a statement may is answered
with the rows that pass its condition. Nothing but a pattern that is too long can make it fail.
-/

namespace ComicCatalog

/-! ## Unknown columns -/

namespace Piece

theorem mem_of_mem_columnsFrom {pieces : List Piece} {offset : Nat} {column : String × Nat}
    (hcolumn : column ∈ columnsFrom offset pieces) : Piece.column column.1 ∈ pieces := by
  induction pieces generalizing offset with
  | nil => cases hcolumn
  | cons piece rest ih =>
      cases piece with
      | column name =>
          rcases List.mem_cons.mp hcolumn with rfl | hcolumn
          · exact List.mem_cons_self
          · exact List.mem_cons_of_mem _ (ih hcolumn)
      | _ => exact List.mem_cons_of_mem _ (ih hcolumn)

theorem mem_of_mem_separated {separator piece : Piece} {groups : List (List Piece)}
    (hpiece : piece ∈ separated separator groups) : piece = separator ∨ ∃ group ∈ groups, piece ∈ group := by
  fun_induction separated separator groups with
  | case1 => cases hpiece
  | case2 group => exact Or.inr ⟨group, List.mem_cons_self, hpiece⟩
  | case3 group rest hrest ih =>
      rcases List.mem_append.mp hpiece with hpiece | hpiece
      · exact Or.inr ⟨group, List.mem_cons_self, hpiece⟩
      · rcases List.mem_cons.mp hpiece with rfl | hpiece
        · exact Or.inl rfl
        · rcases ih hpiece with heq | ⟨other, hother, hmem⟩
          · exact Or.inl heq
          · exact Or.inr ⟨other, List.mem_cons_of_mem group hother, hmem⟩

end Piece

namespace Condition

/-- A clause mentions no column but that of its condition. -/
theorem column_of_mem_clause {condition : Condition} {name : String}
    (hname : Piece.column name ∈ condition.clause) : name = condition.column := by
  unfold clause at hname
  extract_lets column at hname
  split at hname
  · split at hname <;> simpa [column] using hname
  · simp at hname
  next values hvalues =>
    split at hname
    all_goals
      simp only [List.mem_append, List.mem_cons, column, Piece.column.injEq, reduceCtorEq,
        List.not_mem_nil, or_false, false_or] at hname
      rcases hname with rfl | hname
      · rfl
      · rcases Piece.mem_of_mem_separated hname with hname | ⟨group, hgroup, hname⟩
        · cases hname
        · obtain ⟨value, -, rfl⟩ := List.mem_map.mp hgroup
          simp at hname
  · simpa [column] using hname

end Condition

namespace Select

/-- The names of the columns that a select mentions. -/
def columnNames (select : Select) : List String :=
  select.namedColumns ++ select.conditions.map Condition.column ++
    (select.order.map SortBy.column).toList

section

variable {select : Select}

theorem mem_columnNames_of_named {name : String} (hname : name ∈ select.namedColumns) :
    name ∈ select.columnNames :=
  List.mem_append_left _ (List.mem_append_left _ hname)

theorem mem_columnNames_of_condition {condition : Condition} (hcondition : condition ∈ select.conditions) :
    condition.column ∈ select.columnNames :=
  List.mem_append_left _ (List.mem_append_right _ (List.mem_map_of_mem hcondition))

theorem mem_columnNames_of_order {sort : SortBy} (horder : select.order = some sort) :
    sort.column ∈ select.columnNames := by
  apply List.mem_append_right
  rw [horder]
  exact List.mem_cons_self

theorem mem_names_of_columnNames {name : String} (hname : name ∈ select.columnNames) :
    name ∈ select.names :=
  List.mem_cons_of_mem select.table hname

theorem mem_columnNames_filtered {condition : Condition} {name : String}
    (hname : name ∈ (select.filtered condition).columnNames) :
    name ∈ select.columnNames ∨ name = condition.column := by
  simp only [columnNames, Select.filtered, namedColumns, List.mem_append, List.map_append,
    List.map_cons, List.map_nil, List.mem_cons, List.not_mem_nil, or_false] at hname ⊢
  tauto

theorem mem_columnNames_ordered {column name : String} {direction : Direction}
    (hname : name ∈ (select.ordered column direction).columnNames) :
    name ∈ select.columnNames ∨ name = column := by
  simp only [columnNames, Select.ordered, namedColumns, List.mem_append, Option.map_some,
    Option.toList_some, List.mem_cons, List.not_mem_nil, or_false] at hname ⊢
  tauto

end

variable {known : String → Bool}

theorem unknownOf?_eq_none {columns : List (String × Nat)}
    (hknown : ∀ column ∈ columns, known column.1 = true) : unknownOf? known columns = none := by
  rw [unknownOf?, List.find?_eq_none]
  intro column hcolumn
  simp [hknown column hcolumn]

theorem unknownAmong?_eq_none {columns : List (Condition × (String × Nat))}
    (hknown : ∀ column ∈ columns, known column.2.1 = true) : unknownAmong? known columns = none := by
  induction columns with
  | nil => rfl
  | cons column rest ih =>
      obtain ⟨condition, name⟩ := column
      rw [unknownAmong?, if_pos (hknown (condition, name) List.mem_cons_self)]
      exact ih fun other hother => hknown other (List.mem_cons_of_mem _ hother)

/-- A select that mentions only known columns has no unknown one. -/
theorem unknownColumn?_eq_none {select : Select}
    (hknown : ∀ name ∈ select.columnNames, known name = true) : select.unknownColumn? known = none := by
  have hheading : ∀ name, Piece.column name ∈ select.heading → name ∈ select.columnNames := by
    intro name hname
    simp only [heading, List.mem_append, List.mem_cons, reduceCtorEq, List.not_mem_nil,
      or_false, false_or] at hname
    split at hname
    · simp at hname
    · rcases Piece.mem_of_mem_separated hname with hname | ⟨group, hgroup, hname⟩
      · cases hname
      · obtain ⟨other, hother, rfl⟩ := List.mem_map.mp hgroup
        cases List.mem_singleton.mp hname
        exact mem_columnNames_of_named hother
  have hfiltering : ∀ name, Piece.column name ∈ select.filtering → name ∈ select.columnNames := by
    intro name hname
    unfold filtering at hname
    split at hname
    · cases hname
    · rcases List.mem_cons.mp hname with hname | hname
      · cases hname
      · rcases Piece.mem_of_mem_separated hname with hname | ⟨group, hgroup, hname⟩
        · cases hname
        · obtain ⟨condition, hcondition, rfl⟩ := List.mem_map.mp hgroup
          rw [Condition.column_of_mem_clause hname]
          exact mem_columnNames_of_condition hcondition
  have hclosing : ∀ name, Piece.column name ∈ select.closing → name ∈ select.columnNames := by
    intro name hname
    apply List.mem_append_right
    unfold closing at hname
    cases horder : select.order with
    | none => cases hlimit : select.limit <;> simp [horder, hlimit] at hname
    | some sort => cases hlimit : select.limit <;> simpa [horder, hlimit] using hname
  -- Each part of the statement names only columns of the select, wherever it starts.
  have hcolumns : ∀ (pieces : List Piece) (offset : Nat),
      (∀ name, Piece.column name ∈ pieces → name ∈ select.columnNames) →
        ∀ column ∈ Piece.columnsFrom offset pieces, known column.1 = true := by
    intro pieces offset hpieces column hcolumn
    exact hknown _ (hpieces _ (Piece.mem_of_mem_columnsFrom hcolumn))
  unfold unknownColumn?
  extract_lets afterHeading afterFiltering filtering
  have hzip : ∀ column ∈ filtering, known column.2.1 = true := fun column hcolumn =>
    hcolumns _ _ hfiltering _ (List.of_mem_zip hcolumn).2
  rw [unknownOf?_eq_none (hcolumns _ _ hheading), unknownOf?_eq_none (hcolumns _ _ hclosing),
    unknownAmong?_eq_none hzip]
  simp

/-- A select without unknown columns is ordered by a known one. -/
theorem known_order {select : Select} (hunknown : select.unknownColumn? known = none) {sort : SortBy}
    (horder : select.order = some sort) : known sort.column = true := by
  unfold unknownColumn? at hunknown
  extract_lets afterHeading afterFiltering filtering at hunknown
  simp only [Option.orElse_eq_orElse, Option.orElse_eq_or, Option.or_eq_none_iff] at hunknown
  have hclosing : unknownOf? known (Piece.columnsFrom afterFiltering select.closing) = none :=
    hunknown.2.2
  have hcolumn : (sort.column, afterFiltering + (Piece.words " ORDER BY ").text.utf8ByteSize) ∈
      Piece.columnsFrom afterFiltering select.closing := by
    simp [closing, horder, Piece.columnsFrom]
  rw [unknownOf?, List.find?_eq_none] at hclosing
  simpa using hclosing _ hcolumn

/-- The values of a select's conditions are not too many for one statement. -/
def FitsStatement (select : Select) : Prop :=
  (select.conditions.flatMap Condition.bound).length ≤ Statement.maxValues

instance (select : Select) : Decidable select.FitsStatement :=
  inferInstanceAs (Decidable (_ ≤ _))

/-- One condition does not bind too many values if its own are not too many. -/
theorem fitsStatement_filtered {select : Select} {condition : Condition}
    (hconditions : select.conditions = []) (hbound : condition.bound.length ≤ Statement.maxValues) :
    (select.filtered condition).FitsStatement := by
  simpa [FitsStatement, Select.filtered, hconditions] using hbound

theorem values_of_statement {select : Select} {statement : Statement}
    (hstatement : select.statement = .ok statement) :
    statement.values = select.conditions.flatMap Condition.bound := by
  unfold Select.statement at hstatement
  cases hchecked : select.names.forM checkIdentifier with
  | error failure =>
      rw [hchecked] at hstatement
      cases hstatement
  | ok checked =>
      rw [hchecked] at hstatement
      cases hstatement
      rfl

/-- The select asks a table for columns that it has, all by plain names, and binds no more
values than a statement may. -/
structure Asks (select : Select) (table : Table) : Prop where
  names : ∀ name ∈ select.names, isIdentifier name = true
  fits : select.FitsStatement
  table_eq : Table.named? select.table = some table
  columns : ∀ name ∈ select.columnNames, (table.slot? name).isSome = true

theorem asks_ofColumns {name : String} {table : Table} {columns : List String}
    (hname : isIdentifier name = true) (htable : Table.named? name = some table)
    (hcolumns : ∀ column ∈ columns, isIdentifier column = true ∧ (table.slot? column).isSome = true) :
    (ofColumns name columns).Asks table := by
  have hnames : (ofColumns name columns).names = name :: columns := by
    simp [names, ofColumns, namedColumns]
  have hcolumnNames : (ofColumns name columns).columnNames = columns := by
    simp [columnNames, ofColumns, namedColumns]
  refine ⟨?_, Nat.zero_le _, htable, ?_⟩
  · intro other hother
    rw [hnames] at hother
    rcases List.mem_cons.mp hother with rfl | hother
    · exact hname
    · exact (hcolumns other hother).1
  · intro other hother
    rw [hcolumnNames] at hother
    exact (hcolumns other hother).2

theorem asks_all {name : String} {table : Table} (hname : isIdentifier name = true)
    (htable : Table.named? name = some table) : (all name).Asks table := by
  refine ⟨?_, Nat.zero_le _, htable, by rintro other ⟨⟩⟩
  intro other hother
  rw [List.mem_singleton.mp hother]
  exact hname

/-- One more condition on a column of the table. -/
theorem Asks.filtered {select : Select} {table : Table} (hasks : select.Asks table)
    {condition : Condition} (hfits : (select.filtered condition).FitsStatement)
    (hname : isIdentifier condition.column = true)
    (hcolumn : (table.slot? condition.column).isSome = true) : (select.filtered condition).Asks table := by
  refine ⟨?_, hfits, hasks.table_eq, ?_⟩
  · intro other hother
    rcases List.mem_cons.mp hother with rfl | hother
    · exact hasks.names _ List.mem_cons_self
    · rcases mem_columnNames_filtered hother with hother | rfl
      · exact hasks.names other (mem_names_of_columnNames hother)
      · exact hname
  · intro other hother
    rcases mem_columnNames_filtered hother with hother | rfl
    · exact hasks.columns other hother
    · exact hcolumn

theorem Asks.limited {select : Select} {table : Table} (hasks : select.Asks table) (limit : Nat) :
    (select.limited limit).Asks table :=
  ⟨hasks.names, hasks.fits, hasks.table_eq, hasks.columns⟩

/-- An order by a column of the table. -/
theorem Asks.ordered {select : Select} {table : Table} (hasks : select.Asks table) {column : String}
    (direction : Direction) (hname : isIdentifier column = true)
    (hcolumn : (table.slot? column).isSome = true) : (select.ordered column direction).Asks table := by
  refine ⟨?_, hasks.fits, hasks.table_eq, ?_⟩
  · intro other hother
    rcases List.mem_cons.mp hother with rfl | hother
    · exact hasks.names _ List.mem_cons_self
    · rcases mem_columnNames_ordered hother with hother | rfl
      · exact hasks.names other (mem_names_of_columnNames hother)
      · exact hname
  · intro other hother
    rcases mem_columnNames_ordered hother with hother | rfl
    · exact hasks.columns other hother
    · exact hcolumn

end Select

/-! ## Rows that pass -/

namespace Database

variable {db : Database} {table : Table}

/-- A single test that never fails keeps the rows that pass it. -/
theorem filtered_single {slot : Slot} {matcher : Matcher} {passing : Row → Bool} {rows : List Row}
    (htest : ∀ row ∈ rows, matcher.test (row.cell slot) = .ok (passing row)) :
    filtered [⟨slot, matcher⟩] rows = .ok (rows.filter passing) := by
  induction rows with
  | nil => rfl
  | cons row rest ih =>
      have hrow := htest row List.mem_cons_self
      have hrest := ih fun other hother => htest other (List.mem_cons_of_mem row hother)
      cases hpassing : passing row <;> simp [filtered, passes, hrow, hrest, hpassing]

theorem filtered_nil (rows : List Row) : filtered [] rows = .ok rows := by
  induction rows with
  | nil => rfl
  | cons row rest ih => simp [filtered, passes, ih]

/-- What looks at the lowercase form of its column does not tie it, so that a condition
without others is left for the rows. -/
theorem deciding?_singleton (table : Table) (condition : Condition) :
    deciding? table [condition] condition = none := by
  unfold deciding?
  split
  next hfolds =>
    have htie : condition.tie? = none := by
      obtain ⟨column, test, folding⟩ := condition
      cases folding with
      | true => rfl
      | false => cases test <;> first | rfl | cases hfolds
    cases table.slot? condition.column <;> simp [tied?, htie]
  next => rfl

/-- The rows that pass the only condition. -/
theorem selected_singleton {select : Select} {condition : Condition}
    (hconditions : select.conditions = [condition]) (hlimit : select.limit ≠ some 0)
    (hempty : condition.test ≠ .oneOf []) :
    db.selected table select = filtered [rowTest table condition] (db.rows table) := by
  have hkeeps : select.keepsNothing = false := by simp [Select.keepsNothing, hconditions, hempty]
  have hdeciding := deciding?_singleton table condition
  simp [selected, hkeeps, hlimit, hconditions, decided, rowTests, hdeciding]

theorem forM_checkIdentifier {names : List String} (hnames : ∀ name ∈ names, isIdentifier name = true) :
    names.forM checkIdentifier = (.ok () : Except StoreError PUnit) := by
  induction names with
  | nil => rfl
  | cons name rest ih =>
      have hname : checkIdentifier name = .ok () := by
        rw [checkIdentifier, if_pos (hnames name List.mem_cons_self)]
      rw [List.forM, hname]
      exact ih fun other hother => hnames other (List.mem_cons_of_mem name hother)

/-- Everything that a select of known names and columns is answered. -/
theorem answer_eq {select : Select} (hasks : select.Asks table) :
    db.answer select =
      match db.selected table select with
      | .error fault => .error (.database fault)
      | .ok rows =>
          .ok (((match select.limit with
            | none => sorted table select rows
            | some limit => (sorted table select rows).take limit)).map
              (record table (asked table select))) := by
  have hstatement : select.statement = .ok ⟨select.pieces, select.conditions.flatMap Condition.bound⟩ := by
    rw [Select.statement, forM_checkIdentifier hasks.names]
    rfl
  have hfits := Nat.not_lt.mpr hasks.fits
  have hknown := Select.unknownColumn?_eq_none hasks.columns
  cases hselected : db.selected table select with
  | error fault => simp only [answer, hstatement, if_neg hfits, hasks.table_eq, hknown, hselected]
  | ok rows =>
      cases hlimit : select.limit <;>
        simp only [answer, hstatement, if_neg hfits, hasks.table_eq, hknown, hselected, hlimit]

/-! ## Selects that are answered -/

theorem exists_test {matcher : Matcher} (hsimple : matcher ≠ .tooComplex) (cell : Cell) :
    ∃ passing, matcher.test cell = .ok passing := by
  cases matcher with
  | never => exact ⟨_, rfl⟩
  | oneOf values => exact ⟨_, rfl⟩
  | oneOfFolded values => cases hfolded : cell.folded? <;> simp [Matcher.test, hfolded]
  | like pattern => cases hfolded : cell.folded? <;> simp [Matcher.test, hfolded]
  | tooComplex => exact absurd rfl hsimple

theorem exists_filtered {tests : List RowTest}
    (hsimple : ∀ test ∈ tests, test.matcher ≠ .tooComplex) (rows : List Row) :
    ∃ found, filtered tests rows = .ok found := by
  have hpasses : ∀ (row : Row) (tests : List RowTest), (∀ test ∈ tests, test.matcher ≠ .tooComplex) →
      ∃ kept, passes row tests = .ok kept := by
    intro row tests hsimple
    induction tests with
    | nil => exact ⟨true, rfl⟩
    | cons test rest ih =>
        obtain ⟨passing, hpassing⟩ := exists_test (hsimple test List.mem_cons_self) (row.cell test.slot)
        obtain ⟨kept, hkept⟩ := ih fun other hother => hsimple other (List.mem_cons_of_mem test hother)
        cases passing with
        | false => exact ⟨false, by rw [passes, hpassing]⟩
        | true => exact ⟨kept, by rw [passes, hpassing, hkept]⟩
  induction rows with
  | nil => exact ⟨[], rfl⟩
  | cons row rest ih =>
      obtain ⟨kept, hkept⟩ := hpasses row tests hsimple
      obtain ⟨found, hfound⟩ := ih
      exact ⟨if kept then row :: found else found, by rw [filtered, hkept, hfound]⟩

theorem exists_decided {conditions considered : List Condition}
    (hsimple : ∀ condition ∈ considered, (rowTest table condition).matcher ≠ .tooComplex) :
    ∃ kept, decided table conditions considered = .ok kept := by
  induction considered with
  | nil => exact ⟨true, rfl⟩
  | cons condition rest ih =>
      obtain ⟨kept, hkept⟩ := ih fun other hother => hsimple other (List.mem_cons_of_mem condition hother)
      cases hdeciding : deciding? table conditions condition with
      | none => exact ⟨kept, by rw [decided, hdeciding, hkept]⟩
      | some cell =>
          obtain ⟨passing, hpassing⟩ := exists_test (hsimple condition List.mem_cons_self) cell
          cases passing with
          | false => exact ⟨false, by simp only [decided, hdeciding, hpassing]⟩
          | true => exact ⟨kept, by simp only [decided, hdeciding, hpassing, hkept]⟩

/-- A select of known names and columns is answered if none of its patterns is too long. -/
theorem exists_answer_of_asks {select : Select} (hasks : select.Asks table)
    (hsimple : ∀ condition ∈ select.conditions, (rowTest table condition).matcher ≠ .tooComplex) :
    ∃ shown, db.answer select = .ok shown := by
  have hselected : ∃ found, db.selected table select = .ok found := by
    unfold selected
    split
    · exact ⟨[], rfl⟩
    · obtain ⟨kept, hkept⟩ := @exists_decided table select.conditions select.conditions hsimple
      cases kept with
      | false => exact ⟨[], by rw [hkept]⟩
      | true =>
          have htests : ∀ test ∈ rowTests table select.conditions, test.matcher ≠ .tooComplex := by
            intro test htest
            obtain ⟨condition, hcondition, rfl⟩ := List.mem_map.mp htest
            exact hsimple condition (List.mem_of_mem_filter hcondition)
          obtain ⟨found, hfound⟩ := exists_filtered htests (db.rows table)
          exact ⟨found, by rw [hkept, hfound]⟩
  obtain ⟨found, hfound⟩ := hselected
  rw [answer_eq hasks, hfound]
  exact ⟨_, rfl⟩

theorem sorted_of_no_order {select : Select} (horder : select.order = none) (rows : List Row) :
    sorted table select rows = rows := by
  simp only [sorted, horder]

/-- What else a select asks for does not matter to the order of the rows, but for the columns
that conditions look up as they are. -/
theorem sorted_congr {first second : Select} (horder : first.order = second.order)
    (hfolds : first.conditions.all Condition.folds = second.conditions.all Condition.folds)
    (rows : List Row) : sorted table first rows = sorted table second rows := by
  have hwalks : walksBack table first = walksBack table second := by
    funext sort slot
    rw [walksBack, walksBack, hfolds]
  unfold sorted
  rw [horder, hwalks]

/-- Sorting keeps all rows. -/
theorem perm_sorted (select : Select) (rows : List Row) : (sorted table select rows).Perm rows := by
  unfold sorted
  split
  · exact List.Perm.refl _
  · split
    · exact List.Perm.refl _
    · refine (List.mergeSort_perm _ _).trans ?_
      split
      · exact List.reverse_perm rows
      · exact List.Perm.refl _

/-- The rows that one condition lets through. -/
theorem selected_filtered {select : Select} {condition : Condition} {slot : Slot}
    (hconditions : select.conditions = []) (hlimit : select.limit = none)
    (hslot : table.slot? condition.column = some slot) (hempty : condition.test ≠ .oneOf []) :
    db.selected table (select.filtered condition) =
      filtered [⟨slot, Matcher.ofTest (table.operand? slot) condition.test condition.folding⟩]
        (db.rows table) := by
  have hrowTest : rowTest table condition =
      ⟨slot, Matcher.ofTest (table.operand? slot) condition.test condition.folding⟩ := by
    simp [rowTest, hslot]
  have hlimit' : (select.filtered condition).limit ≠ some 0 := by simp [Select.filtered, hlimit]
  have hconditions' : (select.filtered condition).conditions = [condition] := by
    simp [Select.filtered, hconditions]
  rw [selected_singleton hconditions' hlimit' hempty, hrowTest]

/-- A select with one condition that never fails is answered with the rows that pass. -/
theorem answer_filtered {select : Select} (condition : Condition) {slot : Slot}
    (hasks : select.Asks table) (hconditions : select.conditions = []) (hlimit : select.limit = none)
    (hbound : condition.bound.length ≤ Statement.maxValues)
    (hname : isIdentifier condition.column = true)
    (hslot : table.slot? condition.column = some slot) (hempty : condition.test ≠ .oneOf [])
    {passing : Row → Bool}
    (htest : ∀ row ∈ db.rows table, (Matcher.ofTest (table.operand? slot) condition.test
      condition.folding).test (row.cell slot) = .ok (passing row)) :
    db.answer (select.filtered condition) =
      .ok ((sorted table (select.filtered condition) ((db.rows table).filter passing)).map
        (record table (asked table select))) := by
  rw [answer_eq (hasks.filtered (Select.fitsStatement_filtered hconditions hbound) hname (by simp [hslot])),
    selected_filtered hconditions hlimit hslot hempty, filtered_single htest]
  have hlimit' : (select.filtered condition).limit = none := hlimit
  simp only [hlimit']
  rfl

/-! ## Rows behind an answer -/

theorem sublist_filtered {tests : List RowTest} {rows found : List Row}
    (hfound : filtered tests rows = .ok found) : found.Sublist rows := by
  induction rows generalizing found with
  | nil =>
      cases hfound
      exact List.Sublist.refl []
  | cons row rest ih =>
      rw [filtered] at hfound
      split at hfound
      · cases hfound
      next kept _ =>
        split at hfound
        · cases hfound
        next others hothers =>
          cases hfound
          cases kept with
          | true => exact (ih hothers).cons_cons row
          | false => exact (ih hothers).cons row

theorem sublist_selected {select : Select} {found : List Row}
    (hfound : db.selected table select = .ok found) : found.Sublist (db.rows table) := by
  unfold selected at hfound
  split at hfound
  · cases hfound
    exact List.nil_sublist _
  · split at hfound
    · cases hfound
    · cases hfound
      exact List.nil_sublist _
    · exact sublist_filtered hfound

/-- What is answered does not bind too many values. -/
theorem fitsStatement_of_answer {select : Select} {shown : List Record}
    (hanswer : db.answer select = .ok shown) : select.FitsStatement := by
  unfold answer at hanswer
  split at hanswer
  · cases hanswer
  next statement hstatement =>
    split at hanswer
    · cases hanswer
    next hfits =>
      rw [Select.values_of_statement hstatement] at hfits
      exact Nat.not_lt.mp hfits

/-- A select is answered from a table, with the rows that its conditions let through. -/
theorem selected_of_answer {select : Select} {shown : List Record} (hanswer : db.answer select = .ok shown) :
    ∃ table, Table.named? select.table = some table ∧
      ∃ found, db.selected table select = .ok found ∧
        shown = (match select.limit with
          | none => sorted table select found
          | some limit => (sorted table select found).take limit).map
            (record table (asked table select)) := by
  unfold answer at hanswer
  split at hanswer
  · cases hanswer
  · split at hanswer
    · cases hanswer
    · split at hanswer
      · cases hanswer
      next table htable =>
        split at hanswer
        · cases hanswer
        · split at hanswer
          · cases hanswer
          next found hfound =>
            cases hanswer
            exact ⟨table, htable, found, hfound, rfl⟩

/-- What a select is answered with are rows of its table, each at most as often as it is
stored. -/
theorem rows_of_answer {select : Select} {shown : List Record} (htable : Table.named? select.table = some table)
    (hanswer : db.answer select = .ok shown) :
    ∃ rows : List Row, rows.Subperm (db.rows table) ∧
      shown = rows.map (record table (asked table select)) := by
  obtain ⟨other, hother, found, hfound, rfl⟩ := selected_of_answer hanswer
  cases htable.symm.trans hother
  have hsorted : (sorted table select found).Subperm (db.rows table) :=
    (perm_sorted select found).subperm.trans (sublist_selected hfound).subperm
  refine ⟨_, ?_, rfl⟩
  split
  · exact hsorted
  · exact (List.take_sublist _ _).subperm.trans hsorted

end Database

end ComicCatalog
