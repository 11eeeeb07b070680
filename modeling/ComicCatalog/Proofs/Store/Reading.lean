import ComicCatalog.Proofs.Store.Patterns
import ComicCatalog.Proofs.Store.Statements

/-! # What a statement tells of its select

A statement is read from the left. A name ends at its closing accent, a clause after its
last placeholder or where its call is closed, and behind a list stands something else than
its separator, so each part of the text ends where it can only end there. The clauses then
tell how many of the bound values belong to each condition.
-/

namespace ComicCatalog

/-! ## Texts that end by themselves -/

/-- Of two texts of a kind that begin a text, neither goes on behind the other. -/
def PrefixFree (kind : List Char → Prop) : Prop :=
  ∀ ⦃first second left right : List Char⦄, kind first → kind second →
    first ++ left = second ++ right → first = second ∧ left = right

namespace PrefixFree

theorem singleton (text : List Char) : PrefixFree fun other => other = text := by
  rintro first second left right rfl rfl hsame
  exact ⟨rfl, List.append_cancel_left hsame⟩

/-- A list of such texts ends where no separator follows. -/
theorem intercalate {kind : List Char → Prop} (hkind : PrefixFree kind) {separator : List Char}
    {firsts seconds : List (List Char)} {left right : List Char}
    (hfirsts : ∀ text ∈ firsts, kind text) (hseconds : ∀ text ∈ seconds, kind text)
    (hfirst : firsts ≠ []) (hsecond : seconds ≠ [])
    (hleft : ¬ separator <+: left) (hright : ¬ separator <+: right)
    (hsame : separator.intercalate firsts ++ left = separator.intercalate seconds ++ right) :
    firsts = seconds ∧ left = right := by
  -- Where one list ends and the other goes on, a separator would stand behind the shorter one.
  induction firsts generalizing seconds with
  | nil => exact absurd rfl hfirst
  | cons first rest ih =>
      obtain ⟨second, others, rfl⟩ := List.exists_cons_of_ne_nil hsecond
      have hhead := hfirsts first List.mem_cons_self
      have hhead' := hseconds second List.mem_cons_self
      cases rest with
      | nil =>
          cases others with
          | nil =>
              simp only [List.intercalate_singleton] at hsame
              obtain ⟨rfl, rfl⟩ := hkind hhead hhead' hsame
              exact ⟨rfl, rfl⟩
          | cons next others =>
              rw [List.intercalate_singleton, List.intercalate_cons_cons, List.append_assoc,
                List.append_assoc] at hsame
              obtain ⟨-, rfl⟩ := hkind hhead hhead' hsame
              exact absurd (List.prefix_append _ _) hleft
      | cons next rest =>
          cases others with
          | nil =>
              rw [List.intercalate_singleton, List.intercalate_cons_cons, List.append_assoc,
                List.append_assoc] at hsame
              obtain ⟨-, rfl⟩ := hkind hhead hhead' hsame
              exact absurd (List.prefix_append _ _) hright
          | cons next' others =>
              simp only [List.intercalate_cons_cons, List.append_assoc] at hsame
              obtain ⟨rfl, hmore⟩ := hkind hhead hhead' hsame
              obtain ⟨hrest, rfl⟩ := ih (fun text htext => hfirsts text (List.mem_cons_of_mem _ htext))
                (fun text htext => hseconds text (List.mem_cons_of_mem _ htext)) (by simp) (by simp)
                (List.append_cancel_left hmore)
              exact ⟨congrArg (first :: ·) hrest, rfl⟩

end PrefixFree

/-- A text that is closed by a character ends at the first one. -/
theorem closed_inj {closing : Char} {first second left right : List Char} (hfirst : closing ∉ first)
    (hsecond : closing ∉ second) (hsame : first ++ closing :: left = second ++ closing :: right) :
    first = second ∧ left = right := by
  rcases List.append_eq_append_iff.mp hsame with ⟨more, rfl, hmore⟩ | ⟨more, rfl, hmore⟩ <;>
  · cases more with
    | nil =>
        rw [List.nil_append, List.cons.injEq] at hmore
        simp [hmore.2]
    | cons c rest =>
        rw [List.cons_append, List.cons.injEq] at hmore
        simp [hmore.1] at hfirst hsecond

namespace Piece

theorem chars_separated (separator : String) (groups : List (List Piece)) :
    chars (separated (.words separator) groups) =
      separator.toList.intercalate (groups.map chars) := by
  fun_induction separated (.words separator) groups with
  | case1 => rfl
  | case2 group => simp
  | case3 group rest hrest ih =>
      obtain ⟨next, others, rfl⟩ := List.exists_cons_of_ne_nil hrest
      rw [chars_append, List.map_cons, List.map_cons, List.intercalate_cons_cons, ← List.map_cons,
        ← ih, List.append_assoc]
      rfl

end Piece

/-! ## Names -/

/-- A plain name between accents. -/
def IsQuotedName (text : List Char) : Prop :=
  ∃ name, IsPlainName name ∧ text = (Piece.quotedName name).toList

theorem IsPlainName.unquoted {name : String} (hname : IsPlainName name) : '`' ∉ name.toList := by
  obtain ⟨first, rest, hcons, hfirst, hrest⟩ := hname
  have hletter : ¬ IsLetter '`' := by
    unfold IsLetter
    decide
  rw [hcons]
  intro hquote
  rcases List.mem_cons.mp hquote with rfl | hquote
  · exact hfirst.elim hletter (by decide)
  · exact (hrest '`' hquote).elim hletter (by decide)

theorem toList_quotedName (name : String) :
    (Piece.quotedName name).toList = '`' :: (name.toList ++ ['`']) := by
  simp [Piece.quotedName]

/-- A quoted name ends at its second accent. -/
theorem quotedName_inj {first second : String} (hfirst : IsPlainName first)
    (hsecond : IsPlainName second) {left right : List Char}
    (hsame : (Piece.quotedName first).toList ++ left = (Piece.quotedName second).toList ++ right) :
    first = second ∧ left = right := by
  simp only [toList_quotedName, List.cons_append, List.append_assoc, List.nil_append,
    List.cons.injEq, true_and] at hsame
  obtain ⟨hnames, hrest⟩ := closed_inj hfirst.unquoted hsecond.unquoted hsame
  exact ⟨String.toList_inj.mp hnames, hrest⟩

theorem prefixFree_quotedName : PrefixFree IsQuotedName := by
  rintro _ _ left right ⟨first, hfirst, rfl⟩ ⟨second, hsecond, rfl⟩ hsame
  obtain ⟨rfl, hrest⟩ := quotedName_inj hfirst hsecond hsame
  exact ⟨rfl, hrest⟩

/-! ## Clauses -/

/-- A text as a condition compares it: as it is, or in lowercase. -/
def compared (folding : Bool) (text : String) : List Char :=
  if folding then "fold_case(".toList ++ (text.toList ++ ")".toList) else text.toList

theorem compared_name_inj {folding folding' : Bool} {first second : String}
    (hfirst : IsPlainName first) (hsecond : IsPlainName second) {left right : List Char}
    (hsame : compared folding (Piece.quotedName first) ++ left =
      compared folding' (Piece.quotedName second) ++ right) :
    folding = folding' ∧ first = second ∧ left = right := by
  cases folding <;> cases folding'
  case false.false => exact ⟨rfl, quotedName_inj hfirst hsecond hsame⟩
  case true.true =>
    simp only [compared, if_true, List.append_assoc, List.append_cancel_left_eq] at hsame
    obtain ⟨rfl, hrest⟩ := quotedName_inj hfirst hsecond hsame
    exact ⟨rfl, rfl, (List.cons.inj hrest).2⟩
  all_goals simp [compared, toList_quotedName] at hsame

namespace Test

/-- What stands behind the column in the clause of a test. -/
def relation (folds : Bool) : Test → List Char
  | .equals _ => " = ".toList ++ compared folds "?"
  | .oneOf values =>
      " IN (".toList ++ (", ".toList.intercalate (values.map fun _ => compared folds "?") ++ ")".toList)
  | .contains _ => " LIKE ".toList ++ (compared folds "?" ++ " ESCAPE '\\'".toList)

theorem relation_equals (folds : Bool) (value : String) :
    (equals value).relation folds = " = ".toList ++ compared folds "?" :=
  rfl

theorem relation_oneOf (folds : Bool) (values : List String) :
    (oneOf values).relation folds = " IN (".toList ++
      (", ".toList.intercalate (values.map fun _ => compared folds "?") ++ ")".toList) :=
  rfl

theorem relation_contains (folds : Bool) (needle : String) :
    (contains needle).relation folds =
      " LIKE ".toList ++ (compared folds "?" ++ " ESCAPE '\\'".toList) :=
  rfl

/-- The relations of tests end by themselves. -/
theorem relation_inj {folds : Bool} {first second : Test} (hfirst : first ≠ .oneOf [])
    (hsecond : second ≠ .oneOf []) {left right : List Char}
    (hsame : first.relation folds ++ left = second.relation folds ++ right) :
    first.relation folds = second.relation folds ∧ left = right := by
  have hends : ∀ rest : List Char, ¬ ", ".toList <+: ")".toList ++ rest := by
    intro rest
    simp
  cases first <;> cases second
  case oneOf.oneOf values others =>
    simp only [relation_oneOf, List.append_assoc, List.append_cancel_left_eq] at hsame ⊢
    obtain ⟨hslots, hrest⟩ := (PrefixFree.singleton (compared folds "?")).intercalate
      (by simp) (by simp) (by simpa using hfirst) (by simpa using hsecond) (hends left) (hends right) hsame
    exact ⟨by rw [hslots], List.append_cancel_left hrest⟩
  case equals.equals => exact ⟨rfl, List.append_cancel_left hsame⟩
  case contains.contains => exact ⟨rfl, List.append_cancel_left hsame⟩
  all_goals simp [relation_equals, relation_oneOf, relation_contains] at hsame

end Test

namespace Condition

open Piece

/-- The text of a condition's clause. -/
def IsClause (text : List Char) : Prop :=
  ∃ condition : Condition, IsPlainName condition.column ∧ text = chars condition.clause

theorem chars_clause_never {condition : Condition} (htest : condition.test = .oneOf []) :
    chars condition.clause = ['0'] := by
  rw [clause, htest]
  rfl

/-- A clause names the column and then says how it is related to values. -/
theorem chars_clause {condition : Condition} (htest : condition.test ≠ .oneOf []) :
    chars condition.clause = compared condition.folds (quotedName condition.column) ++
      condition.test.relation condition.folds := by
  obtain ⟨column, test, folding⟩ := condition
  cases test with
  | equals value =>
      cases folding <;>
        simp [clause, chars, compared, Test.relation_equals, folds, isPattern, Piece.text]
  | contains needle =>
      cases folding <;>
        simp [clause, chars, compared, Test.relation_contains, folds, isPattern, Piece.text]
  | oneOf values =>
      cases values with
      | nil => exact absurd rfl htest
      | cons value rest =>
          have hslots : ∀ group : List Piece, chars (separated (.words ", ")
              ((value :: rest).map fun _ => group)) =
                ", ".toList.intercalate ((value :: rest).map fun _ => chars group) := by
            intro group
            rw [chars_separated, List.map_map]
            rfl
          have hcall : ") IN (".toList = ")".toList ++ " IN (".toList := rfl
          cases folding <;>
            simp only [clause, if_true, Bool.false_eq_true, if_false, chars_append, hslots,
              Test.relation_oneOf, folds, isPattern, Bool.or_false] <;>
            simp only [chars, compared, List.flatMap_cons, List.flatMap_nil, Piece.text, if_true,
              Bool.false_eq_true, if_false, List.append_nil, List.append_assoc, hcall]

/-- Where clauses begin the same text, both are the constant false, or they compare the same
column in the same way. -/
theorem clause_inj {first second : Condition} (hfirst : IsPlainName first.column)
    (hsecond : IsPlainName second.column) {left right : List Char}
    (hsame : chars first.clause ++ left = chars second.clause ++ right) :
    (first.test = .oneOf [] ∧ second.test = .oneOf [] ∨
      first.test ≠ .oneOf [] ∧ second.test ≠ .oneOf [] ∧ first.folds = second.folds ∧
        first.column = second.column ∧
        first.test.relation first.folds = second.test.relation second.folds) ∧ left = right := by
  have hzero : ∀ (folds : Bool) (name : String) (relation rest : List Char),
      '0' :: rest ≠ compared folds (quotedName name) ++ relation := by
    intro folds name relation rest
    cases folds <;> simp [compared, toList_quotedName]
  by_cases hnever : first.test = .oneOf []
  · rw [chars_clause_never hnever] at hsame
    by_cases hnever' : second.test = .oneOf []
    · rw [chars_clause_never hnever'] at hsame
      exact ⟨Or.inl ⟨hnever, hnever'⟩, List.append_cancel_left hsame⟩
    · rw [chars_clause hnever', List.append_assoc] at hsame
      exact absurd hsame (hzero _ _ _ left)
  · rw [chars_clause hnever, List.append_assoc] at hsame
    by_cases hnever' : second.test = .oneOf []
    · rw [chars_clause_never hnever'] at hsame
      exact absurd hsame.symm (hzero _ _ _ right)
    · rw [chars_clause hnever', List.append_assoc] at hsame
      obtain ⟨hfolds, hcolumn, hmore⟩ := compared_name_inj hfirst hsecond hsame
      rw [hfolds] at hmore ⊢
      obtain ⟨hrelation, hrest⟩ := Test.relation_inj hnever hnever' hmore
      exact ⟨Or.inr ⟨hnever, hnever', rfl, hcolumn, hrelation⟩, hrest⟩

theorem prefixFree_isClause : PrefixFree IsClause := by
  rintro _ _ left right ⟨first, hfirst, rfl⟩ ⟨second, hsecond, rfl⟩ hsame
  obtain ⟨⟨hnever, hnever'⟩ | ⟨hsome, hsome', hfolds, hcolumn, hrelation⟩, hrest⟩ :=
    clause_inj hfirst hsecond hsame
  · rw [chars_clause_never hnever, chars_clause_never hnever']
    exact ⟨rfl, hrest⟩
  · rw [chars_clause hsome, chars_clause hsome', hrelation, hfolds, hcolumn]
    exact ⟨rfl, hrest⟩

/-- Conditions that statements do not tell apart. Without any value a membership is the
constant false, and a substring test always looks at lowercase forms. -/
inductive Alike : Condition → Condition → Prop
  | same (condition : Condition) : Alike condition condition
  | never (column other : String) (folding folding' : Bool) :
      Alike ⟨column, .oneOf [], folding⟩ ⟨other, .oneOf [], folding'⟩
  | contains (column needle : String) (folding folding' : Bool) :
      Alike ⟨column, .contains needle, folding⟩ ⟨column, .contains needle, folding'⟩

theorem Alike.clause_eq {first second : Condition} (halike : first.Alike second) :
    first.clause = second.clause := by
  cases halike <;> rfl

theorem Alike.bound_eq {first second : Condition} (halike : first.Alike second) :
    first.bound = second.bound := by
  cases halike <;> rfl

theorem alike_of_chars_clause {first second : Condition} (hfirst : IsPlainName first.column)
    (hsecond : IsPlainName second.column) (hclause : chars first.clause = chars second.clause)
    (hbound : first.bound = second.bound) : first.Alike second := by
  have hparts := (clause_inj hfirst hsecond (congrArg (· ++ []) hclause)).1
  obtain ⟨column, test, folding⟩ := first
  obtain ⟨column', test', folding'⟩ := second
  dsimp only at hparts
  rcases hparts with ⟨rfl, rfl⟩ | ⟨-, -, hfolds, rfl, hrelation⟩
  · exact .never column column' folding folding'
  cases test <;> cases test'
  case equals.equals value other =>
    have hvalue : value = other := (List.cons.inj hbound).1
    have hfolding : folding = folding' := by simpa [folds, isPattern] using hfolds
    rw [hvalue, hfolding]
    exact .same _
  case oneOf.oneOf values others =>
    have hvalues : values = others := hbound
    have hfolding : folding = folding' := by simpa [folds, isPattern] using hfolds
    rw [hvalues, hfolding]
    exact .same _
  case contains.contains needle other =>
    have hneedle : needle = other := Pattern.substringPattern_injective (List.cons.inj hbound).1
    rw [hneedle]
    exact .contains column other folding folding'
  all_goals simp [Test.relation_equals, Test.relation_oneOf, Test.relation_contains] at hrelation

end Condition

/-! ## The parts of a statement -/

namespace Select

open Piece

variable {first second : Select}

/-- The columns that a heading names. -/
def asking (select : Select) : List Char :=
  match select.namedColumns with
  | [] => "*".toList
  | names => ", ".toList.intercalate (names.map fun name => (quotedName name).toList)

theorem chars_heading (select : Select) :
    chars select.heading = "SELECT ".toList ++ (select.asking ++ (" FROM ".toList ++
      (quotedName select.table).toList)) := by
  unfold heading asking
  cases hnames : select.namedColumns with
  | nil => simp [chars, Piece.text]
  | cons name rest =>
      simp only [chars_append, chars_separated, List.map_map]
      simp [chars, Piece.text, Function.comp_def]

theorem asking_of_nil {select : Select} (hnone : select.namedColumns = []) :
    select.asking = "*".toList := by
  rw [asking, hnone]

theorem asking_of_ne_nil {select : Select} (hsome : select.namedColumns ≠ []) :
    select.asking =
      ", ".toList.intercalate (select.namedColumns.map fun name => (quotedName name).toList) := by
  unfold asking
  split
  next hnone => exact absurd hnone hsome
  next => rfl

/-- Named columns are no asterisk. -/
theorem asking_ne_all {select : Select} (hsome : select.namedColumns ≠ []) (left right : List Char) :
    select.asking ++ left ≠ "*".toList ++ right := by
  obtain ⟨name, rest, hnames⟩ := List.exists_cons_of_ne_nil hsome
  rw [asking_of_ne_nil hsome, hnames]
  cases rest <;> simp [toList_quotedName]

theorem asking_inj (hfirst : ∀ name ∈ first.namedColumns, IsPlainName name)
    (hsecond : ∀ name ∈ second.namedColumns, IsPlainName name) {left right : List Char}
    (hsame : first.asking ++ (" FROM ".toList ++ left) = second.asking ++ (" FROM ".toList ++ right)) :
    first.namedColumns = second.namedColumns ∧ left = right := by
  by_cases hnone : first.namedColumns = [] <;> by_cases hnone' : second.namedColumns = []
  · rw [asking_of_nil hnone, asking_of_nil hnone'] at hsame
    exact ⟨hnone.trans hnone'.symm, List.append_cancel_left (List.append_cancel_left hsame)⟩
  · rw [asking_of_nil hnone] at hsame
    exact absurd hsame.symm (asking_ne_all hnone' _ _)
  · rw [asking_of_nil hnone'] at hsame
    exact absurd hsame (asking_ne_all hnone _ _)
  · have hquoted : ∀ names : List String, (∀ name ∈ names, IsPlainName name) →
        ∀ text ∈ names.map fun name => (quotedName name).toList, IsQuotedName text := by
      intro names hnames text htext
      obtain ⟨name, hname, rfl⟩ := List.mem_map.mp htext
      exact ⟨name, hnames name hname, rfl⟩
    have hends : ∀ rest : List Char, ¬ ", ".toList <+: " FROM ".toList ++ rest := by
      intro rest
      simp
    have hinjective : Function.Injective fun name => (quotedName name).toList := by
      intro name other hname
      simpa [toList_quotedName, String.toList_inj] using hname
    rw [asking_of_ne_nil hnone, asking_of_ne_nil hnone'] at hsame
    obtain ⟨hnames, hrest⟩ := prefixFree_quotedName.intercalate (hquoted _ hfirst)
      (hquoted _ hsecond) (by simpa using hnone) (by simpa using hnone') (hends left) (hends right) hsame
    exact ⟨List.map_injective_iff.mpr hinjective hnames, List.append_cancel_left hrest⟩

theorem heading_inj (hfirst : ∀ name ∈ first.names, IsPlainName name)
    (hsecond : ∀ name ∈ second.names, IsPlainName name) {left right : List Char}
    (hsame : chars first.heading ++ left = chars second.heading ++ right) :
    first.table = second.table ∧ first.namedColumns = second.namedColumns ∧ left = right := by
  have hcolumns : ∀ select : Select, (∀ name ∈ select.names, IsPlainName name) →
      ∀ name ∈ select.namedColumns, IsPlainName name := by
    intro select hnames name hname
    exact hnames name (mem_names_of_columnNames (mem_columnNames_of_named hname))
  rw [chars_heading, chars_heading] at hsame
  simp only [List.append_assoc, List.append_cancel_left_eq] at hsame
  obtain ⟨hcolumns, hmore⟩ := asking_inj (hcolumns first hfirst) (hcolumns second hsecond) hsame
  obtain ⟨htable, hrest⟩ :=
    quotedName_inj (hfirst _ List.mem_cons_self) (hsecond _ List.mem_cons_self) hmore
  exact ⟨htable, hcolumns, hrest⟩

theorem plain_of_condition {select : Select} (hnames : ∀ name ∈ select.names, IsPlainName name) :
    ∀ condition ∈ select.conditions, IsPlainName condition.column := by
  intro condition hcondition
  exact hnames _ (mem_names_of_columnNames (mem_columnNames_of_condition hcondition))

/-- The clauses that a statement filters by. -/
theorem chars_filtering (select : Select) :
    chars select.filtering = if select.conditions = [] then [] else
      " WHERE ".toList ++ " AND ".toList.intercalate (select.conditions.map fun condition =>
        chars condition.clause) := by
  unfold filtering
  split
  next hnone => simp [hnone, chars]
  next hsome =>
    rw [if_neg hsome, ← List.singleton_append, chars_append, chars_separated, List.map_map]
    simp [chars, Piece.text, Function.comp_def]

/-- Clauses end where neither a first nor a further one follows. -/
theorem filtering_inj (hfirst : ∀ name ∈ first.names, IsPlainName name)
    (hsecond : ∀ name ∈ second.names, IsPlainName name) {left right : List Char}
    (hleft : ¬ " WHERE ".toList <+: left) (hright : ¬ " WHERE ".toList <+: right)
    (hleft' : ¬ " AND ".toList <+: left) (hright' : ¬ " AND ".toList <+: right)
    (hsame : chars first.filtering ++ left = chars second.filtering ++ right) :
    first.conditions.map (fun condition => chars condition.clause) =
        second.conditions.map (fun condition => chars condition.clause) ∧ left = right := by
  have hclauses : ∀ select : Select, (∀ name ∈ select.names, IsPlainName name) →
      ∀ text ∈ select.conditions.map fun condition => chars condition.clause,
        Condition.IsClause text := by
    intro select hnames text htext
    obtain ⟨condition, hcondition, rfl⟩ := List.mem_map.mp htext
    exact ⟨condition, plain_of_condition hnames condition hcondition, rfl⟩
  rw [chars_filtering, chars_filtering] at hsame
  by_cases hnone : first.conditions = [] <;> by_cases hnone' : second.conditions = []
  · rw [if_pos hnone, if_pos hnone'] at hsame
    exact ⟨by rw [hnone, hnone'], hsame⟩
  · rw [if_pos hnone, if_neg hnone', List.append_assoc] at hsame
    exact absurd ⟨_, hsame.symm⟩ hleft
  · rw [if_neg hnone, if_pos hnone', List.append_assoc] at hsame
    exact absurd ⟨_, hsame⟩ hright
  · rw [if_neg hnone, if_neg hnone', List.append_assoc, List.append_assoc] at hsame
    exact Condition.prefixFree_isClause.intercalate (hclauses first hfirst) (hclauses second hsecond)
      (by simpa using hnone) (by simpa using hnone') hleft' hright' (List.append_cancel_left hsame)

/-- The text that asks for an order. -/
def ordering (order : Option SortBy) : List Char :=
  order.elim [] fun sort => " ORDER BY ".toList ++ ((quotedName sort.column).toList ++
    (" ".toList ++ sort.direction.keyword.toList))

/-- The text that asks for a limit. -/
def limiting (limit : Option Nat) : List Char :=
  limit.elim [] fun limit => " LIMIT ".toList ++ Nat.toDigits 10 limit

theorem chars_closing (select : Select) :
    chars select.closing = ordering select.order ++ limiting select.limit := by
  unfold closing
  cases select.order <;> cases select.limit <;> simp [chars, Piece.text, ordering, limiting]

/-- Behind the clauses stands neither a first nor a further one. -/
theorem closing_ends (select : Select) :
    ¬ " WHERE ".toList <+: chars select.closing ∧ ¬ " AND ".toList <+: chars select.closing := by
  rw [chars_closing]
  cases select.order <;> cases select.limit <;> simp [ordering, limiting]

theorem limiting_injective : Function.Injective limiting := by
  intro first second hsame
  cases first <;> cases second
  case none.none => rfl
  case some.some limit other =>
    have hdigits : Nat.toDigits 10 limit = Nat.toDigits 10 other := List.append_cancel_left hsame
    rw [← Text.digitsValue_toDigits limit, hdigits, Text.digitsValue_toDigits]
  all_goals simp [limiting] at hsame

theorem ordering_inj {first second : Option SortBy} {limit other : Option Nat}
    (hfirst : ∀ sort ∈ first, IsPlainName sort.column)
    (hsecond : ∀ sort ∈ second, IsPlainName sort.column)
    (hsame : ordering first ++ limiting limit = ordering second ++ limiting other) :
    first = second ∧ limiting limit = limiting other := by
  cases first with
  | none =>
      cases second with
      | none => exact ⟨rfl, hsame⟩
      | some sort => cases limit <;> simp [ordering, limiting] at hsame
  | some sort =>
      cases second with
      | none => cases other <;> simp [ordering, limiting] at hsame
      | some sort' =>
          simp only [ordering, Option.elim_some, List.append_assoc, List.append_cancel_left_eq]
            at hsame
          obtain ⟨hcolumn, hmore⟩ := quotedName_inj (hfirst sort rfl) (hsecond sort' rfl) hsame
          obtain ⟨column, direction⟩ := sort
          obtain ⟨column', direction'⟩ := sort'
          cases hcolumn
          cases direction <;> cases direction' <;> simp [Direction.keyword] at hmore ⊢ <;> exact hmore

theorem closing_inj (hfirst : ∀ name ∈ first.names, IsPlainName name)
    (hsecond : ∀ name ∈ second.names, IsPlainName name)
    (hsame : chars first.closing = chars second.closing) :
    first.order = second.order ∧ first.limit = second.limit := by
  have hplain : ∀ select : Select, (∀ name ∈ select.names, IsPlainName name) →
      ∀ sort ∈ select.order, IsPlainName sort.column := by
    intro select hnames sort hsort
    exact hnames _ (mem_names_of_columnNames (mem_columnNames_of_order hsort))
  rw [chars_closing, chars_closing] at hsame
  obtain ⟨horder, hlimit⟩ := ordering_inj (hplain first hfirst) (hplain second hsecond) hsame
  exact ⟨horder, limiting_injective hlimit⟩

/-! ## The bound values -/

/-- Equal clauses take equally many of the bound values. -/
theorem forall₂_alike {firsts seconds : List Condition}
    (hfirsts : ∀ condition ∈ firsts, IsPlainName condition.column)
    (hseconds : ∀ condition ∈ seconds, IsPlainName condition.column)
    (hclauses : firsts.map (fun condition => chars condition.clause) =
      seconds.map fun condition => chars condition.clause)
    (hvalues : firsts.flatMap Condition.bound = seconds.flatMap Condition.bound) :
    List.Forall₂ Condition.Alike firsts seconds := by
  induction firsts generalizing seconds with
  | nil =>
      rw [List.map_eq_nil_iff.mp hclauses.symm]
      exact List.Forall₂.nil
  | cons first rest ih =>
      cases seconds with
      | nil => cases hclauses
      | cons second others =>
          obtain ⟨hclause, hrest⟩ := List.cons.inj hclauses
          dsimp only at hclause
          rw [List.flatMap_cons, List.flatMap_cons] at hvalues
          have hplain := hfirsts first List.mem_cons_self
          have hplain' := hseconds second List.mem_cons_self
          have hlength : first.bound.length = second.bound.length := by
            rw [← Condition.count_clause, ← Condition.count_clause,
              ← (Condition.unmarked_clause hplain).count_chars,
              ← (Condition.unmarked_clause hplain').count_chars, hclause]
          obtain ⟨hbound, hmore⟩ := List.append_inj hvalues hlength
          refine .cons (Condition.alike_of_chars_clause hplain hplain' hclause hbound) ?_
          exact ih (fun condition hcondition => hfirsts condition (List.mem_cons_of_mem _ hcondition))
            (fun condition hcondition => hseconds condition (List.mem_cons_of_mem _ hcondition))
            hrest hmore

/-- Selects that statements do not tell apart. -/
structure Alike (first second : Select) : Prop where
  table : first.table = second.table
  /-- No list of columns and an empty one ask for the same. -/
  columns : first.namedColumns = second.namedColumns
  conditions : List.Forall₂ Condition.Alike first.conditions second.conditions
  order : first.order = second.order
  limit : first.limit = second.limit

theorem alike_of_chars_pieces (hfirst : ∀ name ∈ first.names, IsPlainName name)
    (hsecond : ∀ name ∈ second.names, IsPlainName name)
    (hpieces : chars first.pieces = chars second.pieces)
    (hvalues : first.conditions.flatMap Condition.bound = second.conditions.flatMap Condition.bound) :
    first.Alike second := by
  obtain ⟨hwhere, hand⟩ := first.closing_ends
  obtain ⟨hwhere', hand'⟩ := second.closing_ends
  simp only [pieces, chars_append, List.append_assoc] at hpieces
  obtain ⟨htable, hnamed, hbehind⟩ := heading_inj hfirst hsecond hpieces
  obtain ⟨hclauses, hclosing⟩ :=
    filtering_inj hfirst hsecond hwhere hwhere' hand hand' hbehind
  obtain ⟨horder, hlimit⟩ := closing_inj hfirst hsecond hclosing
  exact ⟨htable, hnamed,
    forall₂_alike (plain_of_condition hfirst) (plain_of_condition hsecond) hclauses hvalues, horder, hlimit⟩

namespace Alike

theorem chars_pieces_eq (halike : first.Alike second) : chars first.pieces = chars second.pieces := by
  have hclauses := map_eq_of_forall₂ halike.conditions fun _ _ hcondition =>
    congrArg chars hcondition.clause_eq
  have hasking : first.asking = second.asking := by
    rw [asking, asking, halike.columns]
  have hnone : first.conditions = [] ↔ second.conditions = [] := by
    rw [← List.length_eq_zero_iff, halike.conditions.length_eq, List.length_eq_zero_iff]
  simp only [pieces, chars_append, chars_heading, chars_filtering, chars_closing, hclauses, hasking,
    hnone, halike.table, halike.order, halike.limit]

theorem bound_eq (halike : first.Alike second) :
    first.conditions.flatMap Condition.bound = second.conditions.flatMap Condition.bound := by
  rw [List.flatMap_def, List.flatMap_def,
    map_eq_of_forall₂ halike.conditions fun _ _ hcondition => hcondition.bound_eq]

end Alike

/-- The text of a statement and the values bound to it tell the select, but for what makes
no difference: the column and the case of a membership without values, the case of a
substring test, and whether no columns are a list or none. -/
theorem statement_tells_select {statement other : Statement}
    (hfirst : first.statement = .ok statement) (hsecond : second.statement = .ok other) :
    statement.text = other.text ∧ statement.values = other.values ↔ first.Alike second := by
  have hplain := plain_of_statement hfirst
  have hplain' := plain_of_statement hsecond
  rw [statement_of_plain hplain] at hfirst
  rw [statement_of_plain hplain'] at hsecond
  cases hfirst
  cases hsecond
  rw [← String.toList_inj, Statement.toList_text, Statement.toList_text]
  constructor
  · rintro ⟨htext, hvalues⟩
    exact alike_of_chars_pieces hplain hplain' htext hvalues
  · intro halike
    exact ⟨halike.chars_pieces_eq, halike.bound_eq⟩

/-- A substring test and a membership without values, written in two ways. -/
theorem statement_tells_select_alike :
    let first : Select := ⟨"manga", none, [.contains "title" "50%", .oneOf "id" []], none, some 5⟩
    let second : Select :=
      ⟨"manga", some [], [⟨"title", .contains "50%", false⟩, .oneOfFolded "pages" []], none, some 5⟩
    ∃ statement other, first.statement = .ok statement ∧ second.statement = .ok other ∧
      statement.text = other.text ∧ statement.values = other.values := by
  intro first second
  have hplain : ∀ select ∈ [first, second], ∀ name ∈ select.names, IsPlainName name := by
    have hnames : ∀ select ∈ [first, second], ∀ name ∈ select.names, isIdentifier name = true := by
      decide
    exact fun select hselect name hname => isIdentifier_iff.mp (hnames select hselect name hname)
  have hfirst := statement_of_plain (hplain first (by simp))
  have hsecond := statement_of_plain (hplain second (by simp))
  refine ⟨_, _, hfirst, hsecond, (statement_tells_select hfirst hsecond).mpr ⟨rfl, rfl, ?_, rfl, rfl⟩⟩
  exact .cons (.contains "title" "50%" true false) (.cons (.never "id" "pages" false true) .nil)

end Select

end ComicCatalog
