import ComicCatalog.Proofs.Store.Answers
import ComicCatalog.Proofs.Text.Runs

/-! # Statements and the values bound to them

Only plain names get into the text of a statement. Each condition has a clause with one
placeholder for each of its values, so the placeholders and the bound values correspond in
their order, and the text does not depend on the values at all.
-/

namespace ComicCatalog

/-- A letter of ASCII. -/
def IsLetter (c : Char) : Prop :=
  ('a' ≤ c ∧ c ≤ 'z') ∨ ('A' ≤ c ∧ c ≤ 'Z')

/-- A letter or an underscore, and then letters, digits and underscores. -/
def IsPlainName (name : String) : Prop :=
  ∃ first rest, name.toList = first :: rest ∧ (IsLetter first ∨ first = '_') ∧
    ∀ c ∈ rest, IsLetter c ∨ ('0' ≤ c ∧ c ≤ '9') ∨ c = '_'

theorem isAlpha_iff {c : Char} : c.isAlpha = true ↔ IsLetter c := by
  have hupper : c.isUpper = true ↔ 'A' ≤ c ∧ c ≤ 'Z' := decide_eq_true_iff
  have hlower : c.isLower = true ↔ 'a' ≤ c ∧ c ≤ 'z' :=
    Bool.and_eq_true_iff.trans (and_congr decide_eq_true_iff decide_eq_true_iff)
  show (c.isUpper || c.isLower) = true ↔ _
  rw [Bool.or_eq_true, hupper, hlower]
  exact or_comm

theorem isIdentifier_iff {name : String} : isIdentifier name = true ↔ IsPlainName name := by
  unfold isIdentifier IsPlainName
  split
  next hnil =>
    constructor
    · rintro ⟨⟩
    · rintro ⟨first, rest, hcons, -⟩
      rw [hnil] at hcons
      cases hcons
  next first rest hcons =>
    have hdigit : ∀ c : Char, c.isDigit = true ↔ '0' ≤ c ∧ c ≤ '9' := by
      intro c
      simp only [Char.isDigit, Bool.and_eq_true, decide_eq_true_eq, ge_iff_le]
      exact Iff.rfl
    simp only [Bool.and_eq_true, Bool.or_eq_true, isAlpha_iff, decide_eq_true_eq,
      List.all_eq_true, Char.isAlphanum, hdigit, or_assoc]
    constructor
    · rintro ⟨hfirst, hrest⟩
      exact ⟨first, rest, hcons, hfirst, hrest⟩
    · rintro ⟨other, others, hcons', hfirst, hrest⟩
      rw [hcons] at hcons'
      cases hcons'
      exact ⟨hfirst, hrest⟩

/-- A plain name brings no question mark into a statement. -/
theorem IsPlainName.unmarked {name : String} (hname : IsPlainName name) :
    '?' ∉ (Piece.quotedName name).toList := by
  obtain ⟨first, rest, hcons, hfirst, hrest⟩ := hname
  have hletter : ¬ IsLetter '?' := by
    unfold IsLetter
    decide
  have hmark : '?' ∉ name.toList := by
    rw [hcons]
    intro hmark
    rcases List.mem_cons.mp hmark with rfl | hmark
    · exact hfirst.elim hletter (by decide)
    · exact (hrest '?' hmark).elim hletter (by decide)
  simp [Piece.quotedName, hmark]

/-! ## Names that are refused -/

/-- Checking names stops at the first one that is not plain. -/
theorem forM_checkIdentifier_offender {before after : List String} {name : String}
    (hbefore : ∀ other ∈ before, IsPlainName other) (hname : ¬ IsPlainName name) :
    (before ++ name :: after).forM checkIdentifier =
      (.error (.invalidIdentifier name) : Except StoreError PUnit) := by
  induction before with
  | nil =>
      have hcheck : checkIdentifier name = .error (.invalidIdentifier name) := by
        rw [checkIdentifier, if_neg (mt isIdentifier_iff.mp hname)]
      rw [List.nil_append, List.forM, hcheck]
      rfl
  | cons first rest ih =>
      have hcheck : checkIdentifier first = .ok () := by
        rw [checkIdentifier, if_pos (isIdentifier_iff.mpr (hbefore first List.mem_cons_self))]
      rw [List.cons_append, List.forM, hcheck]
      exact ih fun other hother => hbefore other (List.mem_cons_of_mem first hother)

theorem plain_or_offender (names : List String) :
    (∀ name ∈ names, IsPlainName name) ∨ ∃ before name after, names = before ++ name :: after ∧
      (∀ other ∈ before, IsPlainName other) ∧ ¬ IsPlainName name := by
  induction names with
  | nil => exact Or.inl fun name hname => by cases hname
  | cons first rest ih =>
      by_cases hfirst : IsPlainName first
      · rcases ih with hrest | ⟨before, name, after, rfl, hbefore, hname⟩
        · exact Or.inl (List.forall_mem_cons.mpr ⟨hfirst, hrest⟩)
        · exact Or.inr ⟨first :: before, name, after, rfl,
            List.forall_mem_cons.mpr ⟨hfirst, hbefore⟩, hname⟩
      · exact Or.inr ⟨[], first, rest, rfl, by simp, hfirst⟩

/-! ## Placeholders -/

namespace Piece

/-- The characters of pieces that stand one after the other. -/
def chars (pieces : List Piece) : List Char :=
  pieces.flatMap fun piece => piece.text.toList

theorem chars_append (first second : List Piece) :
    chars (first ++ second) = chars first ++ chars second :=
  List.flatMap_append

/-- No piece but a placeholder has a question mark in it. -/
def Unmarked (pieces : List Piece) : Prop :=
  ∀ piece ∈ pieces, piece ≠ .slot → '?' ∉ piece.text.toList

theorem Unmarked.append {first second : List Piece} (hfirst : Unmarked first)
    (hsecond : Unmarked second) : Unmarked (first ++ second) := by
  intro piece hpiece
  rcases List.mem_append.mp hpiece with hpiece | hpiece
  · exact hfirst piece hpiece
  · exact hsecond piece hpiece

theorem Unmarked.separated {separator : Piece} {groups : List (List Piece)}
    (hseparator : '?' ∉ separator.text.toList) (hgroups : ∀ group ∈ groups, Unmarked group) :
    Unmarked (separated separator groups) := by
  intro piece hpiece hslot
  rcases mem_of_mem_separated hpiece with rfl | ⟨group, hgroup, hpiece⟩
  · exact hseparator
  · exact hgroups group hgroup piece hpiece hslot

/-- The question marks of a text are its placeholders. -/
theorem Unmarked.count_chars {pieces : List Piece} (hpieces : Unmarked pieces) :
    (chars pieces).count '?' = pieces.count .slot := by
  induction pieces with
  | nil => rfl
  | cons piece rest ih =>
      have hrest := ih fun other hother => hpieces other (List.mem_cons_of_mem piece hother)
      rw [chars, List.flatMap_cons, List.count_append, ← chars, hrest, List.count_cons,
        Nat.add_comm]
      by_cases hslot : piece = .slot
      · subst hslot
        rfl
      · have hmark := hpieces piece List.mem_cons_self hslot
        simp [List.count_eq_zero_of_not_mem hmark, hslot]

/-- A group among separated ones stands behind the placeholders of those before it. -/
theorem exists_separated_split {separator : Piece} (hseparator : separator ≠ .slot)
    (before : List (List Piece)) (group : List Piece) (after : List (List Piece)) :
    ∃ left right, separated separator (before ++ group :: after) = left ++ group ++ right ∧
      left.count .slot = (before.flatMap id).count .slot := by
  induction before with
  | nil =>
      cases after with
      | nil => exact ⟨[], [], by simp [separated], rfl⟩
      | cons next rest =>
          exact ⟨[], separator :: separated separator (next :: rest), by simp [separated], rfl⟩
  | cons first rest ih =>
      obtain ⟨left, right, hsplit, hcount⟩ := ih
      refine ⟨first ++ separator :: left, right, ?_, ?_⟩
      · have hcons : rest ++ group :: after ≠ [] := by simp
        obtain ⟨head, others, htail⟩ := List.exists_cons_of_ne_nil hcons
        rw [List.cons_append, htail, separated, ← htail, hsplit]
        · simp
        · simp
      · simp [hcount, hseparator, List.count_append]

theorem count_separated {separator : Piece} (hseparator : separator ≠ .slot)
    (groups : List (List Piece)) :
    (separated separator groups).count .slot = (groups.flatMap id).count .slot := by
  fun_induction separated separator groups with
  | case1 => rfl
  | case2 group => simp
  | case3 group rest hrest ih => simp [ih, hseparator, List.count_append]

end Piece

namespace Condition

open Piece

/-- A clause has one placeholder for each bound value. -/
theorem count_clause (condition : Condition) :
    condition.clause.count .slot = condition.bound.length := by
  have hlist : ∀ (group : List Piece) (values : List String), group.count .slot = 1 →
      (separated (.words ", ") (values.map fun _ => group)).count .slot = values.length := by
    intro group values hgroup
    rw [count_separated (by decide)]
    induction values with
    | nil => rfl
    | cons value rest ih =>
        rw [List.map_cons, List.flatMap_cons, List.count_append, ih, id, hgroup,
          List.length_cons, Nat.add_comm]
  obtain ⟨column, test, folding⟩ := condition
  cases test with
  | equals value => cases folding <;> rfl
  | contains needle => rfl
  | oneOf values =>
      cases values with
      | nil => rfl
      | cons value rest =>
          cases folding with
          | false =>
              have hslots := hlist [.slot] (value :: rest) rfl
              simp only [clause, bound, Bool.false_eq_true, if_false, List.count_append, hslots]
              simp
          | true =>
              have hslots := hlist [.words "fold_case(", .slot, .words ")"] (value :: rest) rfl
              simp only [clause, bound, if_true, List.count_append, hslots]
              simp

theorem unmarked_clause {condition : Condition} (hname : IsPlainName condition.column) :
    Unmarked condition.clause := by
  have hcolumn := hname.unmarked
  have hlist : ∀ (group : List Piece) (values : List String), Unmarked group →
      Unmarked (separated (.words ", ") (values.map fun _ => group)) := by
    intro group values hgroup
    apply Unmarked.separated (by decide)
    intro other hother
    obtain ⟨value, -, rfl⟩ := List.mem_map.mp hother
    exact hgroup
  obtain ⟨column, test, folding⟩ := condition
  cases test with
  | equals value => cases folding <;> simp [clause, Unmarked, Piece.text, hcolumn]
  | contains needle => simp [clause, Unmarked, Piece.text, hcolumn]
  | oneOf values =>
      cases values with
      | nil => simp [clause, Unmarked, Piece.text]
      | cons value rest =>
          cases folding with
          | false =>
              refine Unmarked.append (Unmarked.append ?_ (hlist [.slot] _ ?_)) ?_
              all_goals simp [Unmarked, Piece.text, hcolumn]
          | true =>
              refine Unmarked.append (Unmarked.append ?_ (hlist _ _ ?_)) ?_
              all_goals simp [Unmarked, Piece.text, hcolumn]

end Condition

namespace Select

open Piece

variable {select : Select}

theorem unmarked_heading (hnames : ∀ name ∈ select.names, IsPlainName name) :
    Unmarked select.heading := by
  have htable := (hnames select.table List.mem_cons_self).unmarked
  unfold heading
  extract_lets columns
  have hcolumns : Unmarked columns := by
    unfold columns
    split
    · simp [Unmarked, Piece.text]
    next names hnamed =>
      apply Unmarked.separated (by decide)
      intro group hgroup
      obtain ⟨name, hname, rfl⟩ := List.mem_map.mp hgroup
      have hplain := hnames name (mem_names_of_columnNames (mem_columnNames_of_named hname))
      simp [Unmarked, Piece.text, hplain.unmarked]
  refine Unmarked.append (Unmarked.append ?_ hcolumns) ?_
  all_goals simp [Unmarked, Piece.text, htable]

theorem unmarked_filtering (hnames : ∀ name ∈ select.names, IsPlainName name) :
    Unmarked select.filtering := by
  unfold filtering
  split
  · simp [Unmarked]
  next =>
    rw [← List.singleton_append]
    refine Unmarked.append (by simp [Unmarked, Piece.text]) (.separated (by decide) ?_)
    intro group hgroup
    obtain ⟨condition, hcondition, rfl⟩ := List.mem_map.mp hgroup
    apply Condition.unmarked_clause
    exact hnames _ (mem_names_of_columnNames (mem_columnNames_of_condition hcondition))

theorem unmarked_closing (hnames : ∀ name ∈ select.names, IsPlainName name) :
    Unmarked select.closing := by
  have hdigits : ∀ n, '?' ∉ Nat.toDigits 10 n := by
    intro n hmark
    exact absurd (Text.isDigit_toDigits n '?' hmark) (by decide)
  unfold closing
  extract_lets order limit
  refine Unmarked.append ?_ ?_
  · unfold order
    cases horder : select.order with
    | none => simp [Unmarked]
    | some sort =>
        have hplain := hnames _ (mem_names_of_columnNames (mem_columnNames_of_order horder))
        cases hdirection : sort.direction <;>
          simp [Unmarked, Piece.text, hplain.unmarked, hdirection, Direction.keyword]
  · unfold limit
    cases select.limit with
    | none => simp [Unmarked]
    | some n => simp [Unmarked, Piece.text, hdigits n]

/-- Placeholders stand in the clauses of conditions only. -/
theorem count_heading (select : Select) : select.heading.count .slot = 0 := by
  unfold heading
  extract_lets columns
  have hcolumns : columns.count .slot = 0 := by
    unfold columns
    split
    · rfl
    next names _ =>
      rw [count_separated (by decide), List.count_eq_zero, List.mem_flatMap]
      rintro ⟨group, hgroup, hslot⟩
      obtain ⟨name, -, rfl⟩ := List.mem_map.mp hgroup
      simp at hslot
  simp [List.count_append, hcolumns]

theorem count_closing (select : Select) : select.closing.count .slot = 0 := by
  unfold closing
  cases select.order <;> cases select.limit <;> simp

theorem count_clauses (conditions : List Condition) :
    ((conditions.map Condition.clause).flatMap id).count .slot =
      (conditions.flatMap Condition.bound).length := by
  induction conditions with
  | nil => rfl
  | cons condition rest ih =>
      rw [List.map_cons, List.flatMap_cons, List.count_append, ih, id, condition.count_clause,
        List.flatMap_cons, List.length_append]

theorem count_pieces (select : Select) :
    select.pieces.count .slot = (select.conditions.flatMap Condition.bound).length := by
  have hfiltering : select.filtering.count .slot =
      (select.conditions.flatMap Condition.bound).length := by
    unfold filtering
    split
    next hnone => rw [hnone, List.flatMap_nil, List.count_nil, List.length_nil]
    next =>
      rw [List.count_cons_of_ne (by simp), count_separated (by decide), count_clauses]
  rw [pieces, List.count_append, List.count_append, count_heading, count_closing, hfiltering,
    Nat.zero_add, Nat.add_zero]

/-- A select's conditions stand one after the other behind its heading. -/
theorem exists_pieces_split (select : Select) {before after : List Condition} {condition : Condition}
    (hsplit : select.conditions = before ++ condition :: after) :
    ∃ left right, select.pieces = left ++ condition.clause ++ right ∧
      left.count .slot = (before.flatMap Condition.bound).length := by
  have hcons : before ++ condition :: after ≠ [] := by simp
  obtain ⟨first, rest, hconditions⟩ := List.exists_cons_of_ne_nil hcons
  have hfiltering : select.filtering = .words " WHERE " ::
      separated (.words " AND ") (select.conditions.map Condition.clause) := by
    rw [filtering, hsplit, hconditions]
  have hseparator : Piece.words " AND " ≠ .slot := by decide
  obtain ⟨left, right, hgroups, hcount⟩ := exists_separated_split hseparator
    (before.map Condition.clause) condition.clause (after.map Condition.clause)
  refine ⟨select.heading ++ .words " WHERE " :: left, right ++ select.closing, ?_, ?_⟩
  · rw [pieces, hfiltering, hsplit, List.map_append, List.map_cons, hgroups]
    simp only [List.append_assoc, List.cons_append]
  · rw [List.count_append, count_heading, List.count_cons_of_ne (by simp), hcount, count_clauses,
      Nat.zero_add]

theorem unmarked_pieces (hnames : ∀ name ∈ select.names, IsPlainName name) :
    Unmarked select.pieces :=
  ((unmarked_heading hnames).append (unmarked_filtering hnames)).append (unmarked_closing hnames)

end Select

/-! ## Values that differ -/

/-- Tests of one kind, perhaps for different values. -/
inductive Test.SameKind : Test → Test → Prop
  | equals (value other : String) : SameKind (.equals value) (.equals other)
  | contains (needle other : String) : SameKind (.contains needle) (.contains other)
  | oneOf (values others : List String) (hlength : values.length = others.length) :
      SameKind (.oneOf values) (.oneOf others)

structure Condition.SameShape (first second : Condition) : Prop where
  column : first.column = second.column
  folding : first.folding = second.folding
  kind : first.test.SameKind second.test

/-- Selects that differ in nothing but the values of their conditions. -/
structure Select.SameShape (first second : Select) : Prop where
  table : first.table = second.table
  columns : first.columns = second.columns
  conditions : List.Forall₂ Condition.SameShape first.conditions second.conditions
  order : first.order = second.order
  limit : first.limit = second.limit

theorem Condition.SameShape.clause_eq {first second : Condition} (hshape : first.SameShape second) :
    first.clause = second.clause := by
  obtain ⟨column, test, folding⟩ := first
  obtain ⟨other, test', folding'⟩ := second
  obtain ⟨hcolumn, hfolding, hkind⟩ := hshape
  dsimp only at hcolumn hfolding hkind
  subst hcolumn hfolding
  cases hkind with
  | equals value other => rfl
  | contains needle other => rfl
  | oneOf values others hlength =>
      cases values with
      | nil =>
          rw [List.length_eq_zero_iff.mp hlength.symm]
      | cons value rest =>
          cases others with
          | nil => cases hlength
          | cons other others =>
              have hgroups : ∀ group : List Piece,
                  ((value :: rest).map fun _ => group) = (other :: others).map fun _ => group := by
                intro group
                rw [List.map_const', List.map_const', hlength]
              simp only [clause, hgroups]

/-- A function that does not tell related members apart does not tell the lists apart. -/
theorem map_eq_of_forall₂ {α β : Type} {related : α → α → Prop} {f : α → β} {firsts seconds : List α}
    (hlists : List.Forall₂ related firsts seconds)
    (hf : ∀ first second, related first second → f first = f second) :
    firsts.map f = seconds.map f := by
  rw [← List.forall₂_eq_eq_eq, List.forall₂_map_left_iff, List.forall₂_map_right_iff]
  exact hlists.imp hf

namespace Select.SameShape

variable {first second : Select}

theorem names_eq (hshape : first.SameShape second) : first.names = second.names := by
  rw [names, names, map_eq_of_forall₂ hshape.conditions fun _ _ hcondition => hcondition.column,
    hshape.table, hshape.order, namedColumns, namedColumns, hshape.columns]

theorem pieces_eq (hshape : first.SameShape second) : first.pieces = second.pieces := by
  have hheading : first.heading = second.heading := by
    rw [heading, heading, namedColumns, namedColumns, hshape.columns, hshape.table]
  have hclosing : first.closing = second.closing := by
    rw [closing, closing, hshape.order, hshape.limit]
  have hclauses := map_eq_of_forall₂ hshape.conditions fun _ _ hcondition => hcondition.clause_eq
  have hfiltering : first.filtering = second.filtering := by
    have hconditions := hshape.conditions
    unfold filtering
    generalize first.conditions = conditions at hconditions hclauses
    generalize second.conditions = others at hconditions hclauses
    cases hconditions with
    | nil => rfl
    | cons hhead htail => simp only [hclauses]
  rw [pieces, pieces, hheading, hfiltering, hclosing]

end Select.SameShape

/-! ## The statement of a select -/

theorem Statement.toList_text (statement : Statement) :
    statement.text.toList = Piece.chars statement.pieces := by
  simp [Statement.text, Piece.chars, String.toList_join, List.flatMap_map]

namespace Select

open Piece

variable {select : Select}

theorem statement_of_plain (hnames : ∀ name ∈ select.names, IsPlainName name) :
    select.statement = .ok ⟨select.pieces, select.conditions.flatMap Condition.bound⟩ := by
  have hchecked := Database.forM_checkIdentifier fun name hname => isIdentifier_iff.mpr (hnames name hname)
  rw [statement, hchecked]
  rfl

theorem statement_of_offender {before after : List String} {name : String}
    (hsplit : select.names = before ++ name :: after)
    (hbefore : ∀ other ∈ before, IsPlainName other) (hname : ¬ IsPlainName name) :
    select.statement = .error (.invalidIdentifier name) := by
  rw [statement, hsplit, forM_checkIdentifier_offender hbefore hname]
  rfl

theorem plain_of_statement {statement : Statement} (hstatement : select.statement = .ok statement) :
    ∀ name ∈ select.names, IsPlainName name := by
  rcases plain_or_offender select.names with hplain | ⟨before, name, after, hsplit, hbefore, hname⟩
  · exact hplain
  · rw [statement_of_offender hsplit hbefore hname] at hstatement
    cases hstatement

/-- The text of a statement holds the plain names of its select, which is refused for the
first name that is not plain. Its question marks are placeholders: the clause of a
condition has one for each value of that condition, behind those for the values of the
conditions before it, and the values themselves do not matter to the text. -/
theorem statement_binds_values (select : Select) :
    let names := select.table :: (select.namedColumns ++ select.conditions.map Condition.column ++
      (select.order.map SortBy.column).toList)
    ((∃ statement, select.statement = .ok statement) ↔ ∀ name ∈ names, IsPlainName name) ∧
    (∀ failure, select.statement = .error failure ↔
      ∃ before name after, names = before ++ name :: after ∧
        (∀ other ∈ before, IsPlainName other) ∧ ¬ IsPlainName name ∧
          failure = .invalidIdentifier name) ∧
    (∀ statement, select.statement = .ok statement →
      statement.text.toList.count '?' = statement.values.length ∧
      ∀ before condition after, select.conditions = before ++ condition :: after →
        statement.values = before.flatMap Condition.bound ++ condition.bound ++
          after.flatMap Condition.bound ∧
        ∃ left right, statement.text.toList = left ++ Piece.chars condition.clause ++ right ∧
          left.count '?' = (before.flatMap Condition.bound).length ∧
          (Piece.chars condition.clause).count '?' = condition.bound.length) ∧
    (∀ other, select.SameShape other →
      other.statement.map Statement.text = select.statement.map Statement.text) := by
  intro names
  refine ⟨?_, ?_, ?_, ?_⟩
  · constructor
    · rintro ⟨statement, hstatement⟩
      exact plain_of_statement hstatement
    · intro hplain
      exact ⟨_, statement_of_plain hplain⟩
  · intro failure
    constructor
    · intro hfailure
      rcases plain_or_offender names with hplain | ⟨before, name, after, hsplit, hbefore, hname⟩
      · rw [statement_of_plain hplain] at hfailure
        cases hfailure
      · rw [statement_of_offender hsplit hbefore hname] at hfailure
        cases hfailure
        exact ⟨before, name, after, hsplit, hbefore, hname, rfl⟩
    · rintro ⟨before, name, after, hsplit, hbefore, hname, rfl⟩
      exact statement_of_offender hsplit hbefore hname
  · intro statement hstatement
    have hplain := plain_of_statement hstatement
    rw [statement_of_plain hplain] at hstatement
    cases hstatement
    -- Plain names hold no question mark, so each one in the text is a placeholder.
    have hunmarked := unmarked_pieces hplain
    rw [Statement.toList_text]
    refine ⟨by rw [hunmarked.count_chars, count_pieces], ?_⟩
    intro before condition after hsplit
    obtain ⟨left, right, hpieces, hcount⟩ := select.exists_pieces_split hsplit
    have hleft : Unmarked left := fun piece hpiece =>
      hunmarked piece (by simp [hpieces, hpiece])
    have hclause : Unmarked condition.clause := fun piece hpiece =>
      hunmarked piece (by simp [hpieces, hpiece])
    refine ⟨by simp [hsplit, List.flatMap_append], chars left, chars right, ?_, ?_, ?_⟩
    · rw [hpieces, chars_append, chars_append]
    · rw [hleft.count_chars, hcount]
    · rw [hclause.count_chars, condition.count_clause]
  · intro other hshape
    rcases plain_or_offender select.names with hplain | ⟨before, name, after, hsplit, hbefore, hname⟩
    · have hplain' : ∀ name ∈ other.names, IsPlainName name := by rwa [← hshape.names_eq]
      rw [statement_of_plain hplain, statement_of_plain hplain']
      simp only [Except.map, Statement.text, hshape.pieces_eq]
    · -- Selects of one shape have the same names, hence the same offender.
      have hsplit' : other.names = before ++ name :: after := by rw [← hshape.names_eq, hsplit]
      rw [statement_of_offender hsplit hbefore hname, statement_of_offender hsplit' hbefore hname]

end Select

end ComicCatalog
