import ComicCatalog.Catalog.Search
import ComicCatalog.Proofs.Lookup.Outcome
import ComicCatalog.Proofs.Store.Cells
import ComicCatalog.Proofs.Store.Substrings

/-! # The selects of the catalog

Every select that the catalog asks names known tables and columns, so a database answers
it with the rows that pass its one condition. Only the search for a title can fail.
-/

namespace ComicCatalog

/-! ## Records of rows -/

namespace Record

/-- Pairs of distinct names are the record they make. -/
theorem ofPairs_of_nodup {pairs : List (String × Json)} (hnames : (pairs.map Prod.fst).Nodup) :
    ofPairs pairs = pairs := by
  have hfold : ∀ (record : Record) (pairs : List (String × Json)),
      ((record ++ pairs).map Prod.fst).Nodup →
        pairs.foldl (fun record pair => record.set pair.1 pair.2) record = record ++ pairs := by
    intro record pairs
    induction pairs generalizing record with
    | nil => simp
    | cons pair rest ih =>
        intro hnodup
        have hnew : pair.1 ∉ record.map Prod.fst := by
          rw [List.map_append, List.nodup_append] at hnodup
          intro hmem
          exact hnodup.2.2 _ hmem pair.1 (by simp) rfl
        rw [List.foldl_cons, set_of_not_mem pair.2 hnew, ih]
        · simp
        · simpa using hnodup
  simpa [ofPairs] using hfold [] pairs (by simpa using hnames)

theorem get?_erase_of_ne (record : Record) {name other : String} (hne : other ≠ name) :
    (record.erase name).get? other = record.get? other := by
  induction record with
  | nil => rfl
  | cons field rest ih =>
      obtain ⟨first, value⟩ := field
      simp only [erase, get?] at ih ⊢
      by_cases hfirst : first = name
      · subst hfirst
        have hkey : (other == first) = false := by simp [hne]
        simp [List.lookup_cons, hkey, ih]
      · cases hkey : other == first <;> simp [hfirst, List.lookup_cons, hkey, ih]

end Record

namespace Database

variable {db : Database} {table : Table}

theorem record_eq {slots : List Slot} (hlabels : (slots.map table.label).Nodup) (row : Row) :
    record table slots row = slots.map fun slot => (table.label slot, (row.cell slot).toJson) := by
  rw [record, Record.ofPairs_of_nodup]
  rw [List.map_map]
  exact hlabels

/-- A record shows the cell of every asked slot under its label. -/
theorem get?_record {slots : List Slot} (hlabels : (slots.map table.label).Nodup) (row : Row)
    {slot : Slot} (hslot : slot ∈ slots) :
    (record table slots row).get? (table.label slot) = some (row.cell slot).toJson := by
  rw [record_eq hlabels]
  induction slots with
  | nil => cases hslot
  | cons first rest ih =>
      obtain ⟨hfirst, hrest⟩ := List.nodup_cons.mp hlabels
      rcases List.mem_cons.mp hslot with rfl | hslot
      · simp [Record.get?]
      · have hne : (table.label slot == table.label first) = false := by
          rw [beq_eq_false_iff_ne]
          intro heq
          exact hfirst (heq ▸ List.mem_map_of_mem hslot)
        simpa [Record.get?, List.lookup_cons, hne] using ih hrest hslot

theorem inColumn?_record {slots : List Slot} (hlabels : (slots.map table.label).Nodup) (row : Row)
    {slot : Slot} (hslot : slot ∈ slots) :
    Ident.inColumn? (record table slots row) (table.label slot) =
      Ident.ofJson? (row.cell slot).toJson := by
  rw [Ident.inColumn?, get?_record hlabels row hslot, Option.bind_some]

end Database

/-! ## Names of tables and columns -/

namespace Facet

theorem isIdentifier_namesTable (facet : Facet) : isIdentifier facet.namesTable = true := by
  cases facet <;> decide

theorem isIdentifier_linksTable (facet : Facet) : isIdentifier facet.linksTable = true := by
  cases facet <;> decide

theorem isIdentifier_linkColumn (facet : Facet) : isIdentifier facet.linkColumn = true := by
  cases facet <;> decide

theorem linkColumn_ne (facet : Facet) : facet.linkColumn ≠ "manga_id" := by
  cases facet <;> decide

end Facet

/-! ## Answers -/

namespace Database

open Lookup

variable {db : Database}

/-- A membership test keeps the rows that equal one of the values. -/
theorem answer_oneOf {select : Select} {table : Table} {column : String} {slot : Slot}
    {values piece : List String} (hasks : select.Asks table) (hconditions : select.conditions = [])
    (horder : select.order = none) (hlimit : select.limit = none)
    (hname : isIdentifier column = true) (hslot : table.slot? column = some slot)
    (hpiece : piece ∈ pieces values) :
    db.answer (select.filtered (.oneOf column piece)) =
      .ok (((db.rows table).filter fun row =>
        (piece.filterMap (table.operand? slot)).any (row.cell slot).equals).map
          (record table (asked table select))) := by
  have hempty : (Condition.oneOf column piece).test ≠ .oneOf [] := by
    simpa [Condition.oneOf] using ne_nil_of_mem_pieces hpiece
  have hbound : (Condition.oneOf column piece).bound.length ≤ Statement.maxValues :=
    (length_le_of_mem_pieces hpiece).trans (by decide)
  have hanswer := db.answer_filtered (.oneOf column piece) hasks hconditions hlimit hbound hname hslot
    hempty fun row hrow => rfl
  have horder' : (select.filtered (.oneOf column piece)).order = none := horder
  rwa [sorted_of_no_order horder'] at hanswer

/-- The names of a facet that equal a value up to case. -/
theorem answer_nameSelect (facet : Facet) (value : String) :
    db.answer (facet.nameSelect value) =
      .ok (((db.rows (.names facet)).filter fun row =>
        (row.cell (.column 0)).folded? == some (Text.fold value)).map
          (record (.names facet) [.key])) := by
  have hasks : (Select.ofColumns facet.namesTable ["id"]).Asks (.names facet) := by
    apply Select.asks_ofColumns facet.isIdentifier_namesTable (Table.named?_namesTable facet)
    intro column hcolumn
    rw [List.mem_singleton.mp hcolumn, Table.slot?_names_id]
    exact ⟨by decide, rfl⟩
  have hasked : asked (.names facet) (Select.ofColumns facet.namesTable ["id"]) = [.key] := by
    simp [asked, Select.ofColumns, Select.namedColumns, Table.slot?_names_id]
  rw [← hasked]
  have hname : isIdentifier "name" = true := by decide
  have hbound : (Condition.equalsFolded "name" value).bound.length ≤ Statement.maxValues :=
    (by decide : 1 ≤ Statement.maxValues)
  refine answer_filtered (.equalsFolded "name" value) hasks rfl rfl hbound hname
    (Table.slot?_names_name facet) ?_ ?_
  · simp [Condition.equalsFolded]
  · intro row hrow
    simp only [Condition.equalsFolded, Matcher.ofTest, if_true, Matcher.test]
    cases (row.cell (.column 0)).folded? with
    | none => rfl
    | some folded => simp [Bool.beq_eq_decide_eq]

/-- The title of a work has a phrase, as far as the database can see. -/
def TitleFinds (phrase : String) (work : Row) : Prop :=
  ∃ title, (work.cell (.column 0)).folded? = some title ∧
    Pattern.Finds (Text.foldList phrase.toList) title.toList

theorem asks_titleSelect : (Select.ofColumns "manga" ["id"]).Asks .works := by
  apply Select.asks_ofColumns (by decide) Table.named?_works
  intro column hcolumn
  rw [List.mem_singleton.mp hcolumn, Table.slot?_works_id]
  exact ⟨by decide, rfl⟩

/-- The works whose title has a phrase that is not too long. -/
theorem answer_titleSelect_of_isShort {phrase : String} (hshort : Pattern.IsShort phrase) :
    ∃ passing : Row → Bool, (∀ row, passing row = true ↔ TitleFinds phrase row) ∧
      db.answer (titleSelect phrase) =
        .ok (((db.rows .works).filter passing).map (record .works [.key])) := by
  have hasked : asked .works (Select.ofColumns "manga" ["id"]) = [.key] := by
    simp [asked, Select.ofColumns, Select.namedColumns, Table.slot?_works_id]
  obtain ⟨passing, hpassing, -, hanswer⟩ :=
    db.answer_contains asks_titleSelect rfl rfl Table.slot?_works_title hshort
  rw [hasked] at hanswer
  exact ⟨passing, hpassing, hanswer⟩

/-- A phrase that is too long is looked for only if there are no works at all. -/
theorem rows_eq_nil_of_answer_titleSelect {phrase : String} {rows : List Record}
    (hlong : ¬ Pattern.IsShort phrase) (hanswer : db.answer (titleSelect phrase) = .ok rows) :
    db.rows .works = [] ∧ rows = [] := by
  have hselected : db.selected .works (titleSelect phrase) =
      filtered [⟨.column 0, .tooComplex⟩] (db.rows .works) := by
    rw [← Matcher.ofTest_contains_of_not_isShort (Table.operand? .works (.column 0)) hlong true]
    exact selected_filtered rfl rfl Table.slot?_works_title (by simp [Condition.contains])
  have hname : isIdentifier "title" = true := by decide
  have hbound : (Condition.contains "title" phrase).bound.length ≤ Statement.maxValues :=
    (by decide : 1 ≤ Statement.maxValues)
  have hasks : (titleSelect phrase).Asks .works :=
    asks_titleSelect.filtered (Select.fitsStatement_filtered rfl hbound) hname (by simp [Condition.contains, Table.slot?_works_title])
  rw [answer_eq hasks, hselected] at hanswer
  cases hworks : db.rows .works with
  | nil =>
      rw [hworks] at hanswer
      cases hanswer
      exact ⟨rfl, rfl⟩
  | cons row rest =>
      -- Testing the first row fails the whole select.
      rw [hworks] at hanswer
      cases hanswer

/-- The works whose title has a phrase, whatever its length. -/
theorem answer_titleSelect {phrase : String} {rows : List Record}
    (hanswer : db.answer (titleSelect phrase) = .ok rows) :
    ∃ passing : Row → Bool, (∀ row, passing row = true ↔ TitleFinds phrase row) ∧
      rows = ((db.rows .works).filter passing).map (record .works [.key]) := by
  by_cases hshort : Pattern.IsShort phrase
  · obtain ⟨passing, hpassing, hfound⟩ := db.answer_titleSelect_of_isShort hshort
    exact ⟨passing, hpassing, Except.ok.inj (hanswer.symm.trans hfound)⟩
  · classical
    obtain ⟨hworks, rfl⟩ := rows_eq_nil_of_answer_titleSelect hshort hanswer
    refine ⟨fun row => decide (TitleFinds phrase row), fun row => decide_eq_true_iff, ?_⟩
    rw [hworks]
    rfl

/-- Comparing row numbers with texts is looking the texts up as row numbers. -/
theorem any_operand?_key (table : Table) (row : Row) (piece : List String) :
    (piece.filterMap (table.operand? .key)).any (row.cell .key).equals =
      piece.any fun text => Cell.rowNumber? text == some row.key := by
  induction piece with
  | nil => rfl
  | cons text rest ih =>
      cases hrow : Cell.rowNumber? text with
      | none => simpa [Table.operand?, hrow] using ih
      | some n =>
          have hequals : (row.cell .key).equals (.integer n) = (some n == some row.key) := by
            rw [Bool.eq_iff_iff]
            simp only [Row.cell, Cell.equals, Cell.order, bne_iff_ne, ne_eq, reduceCtorEq,
              not_false_eq_true, Bool.and_eq_true, beq_iff_eq, compare_eq_iff_eq, true_and,
              Option.some.injEq]
            exact eq_comm
          simpa [Table.operand?, hrow, hequals] using congrArg (_ || ·) ih

/-- The rows of a table with the given row numbers. -/
theorem answer_byKey {select : Select} {table : Table} {values piece : List String}
    (hasks : select.Asks table) (hconditions : select.conditions = []) (horder : select.order = none)
    (hlimit : select.limit = none) (hslot : table.slot? "id" = some .key)
    (hpiece : piece ∈ pieces values) :
    db.answer (select.filtered (.oneOf "id" piece)) =
      .ok (((db.rows table).filter fun row =>
        piece.any fun text => Cell.rowNumber? text == some row.key).map
          (record table (asked table select))) := by
  rw [answer_oneOf hasks hconditions horder hlimit (by decide) hslot hpiece]
  simp only [any_operand?_key]

theorem answer_rowsOf {values piece : List String} (hpiece : piece ∈ pieces values) :
    db.answer ((Select.all "manga").filtered (.oneOf "id" piece)) =
      .ok (((db.rows .works).filter fun row =>
        piece.any fun text => Cell.rowNumber? text == some row.key).map
          (record .works Table.works.slots)) := by
  have hname : isIdentifier "manga" = true := by decide
  have hasks : (Select.all "manga").Asks .works := Select.asks_all hname Table.named?_works
  have hasked : asked .works (Select.all "manga") = Table.works.slots := rfl
  rw [← hasked]
  exact answer_byKey hasks rfl rfl rfl Table.slot?_works_id hpiece

theorem answer_names {facet : Facet} {values piece : List String} (hpiece : piece ∈ pieces values) :
    db.answer ((Select.ofColumns facet.namesTable ["id", "name"]).filtered (.oneOf "id" piece)) =
      .ok (((db.rows (.names facet)).filter fun row =>
        piece.any fun text => Cell.rowNumber? text == some row.key).map
          (record (.names facet) [.key, .column 0])) := by
  have hasks : (Select.ofColumns facet.namesTable ["id", "name"]).Asks (.names facet) := by
    apply Select.asks_ofColumns facet.isIdentifier_namesTable (Table.named?_namesTable facet)
    intro column hcolumn
    rcases List.mem_cons.mp hcolumn with rfl | hcolumn
    · rw [Table.slot?_names_id]
      exact ⟨by decide, rfl⟩
    · rw [List.mem_singleton.mp hcolumn, Table.slot?_names_name]
      exact ⟨by decide, rfl⟩
  have hasked : asked (.names facet) (Select.ofColumns facet.namesTable ["id", "name"]) =
      [.key, .column 0] := by
    simp [asked, Select.ofColumns, Select.namedColumns, Table.slot?_names_id,
      Table.slot?_names_name]
  rw [← hasked]
  exact answer_byKey hasks rfl rfl rfl (Table.slot?_names_id facet) hpiece

/-- The links of a facet with one of the given texts in a column. -/
theorem answer_links {facet : Facet} {columns : List String} {slots : List Slot} {column : String}
    {index : Nat} {values piece : List String}
    (hcolumns : ∀ asked ∈ columns, isIdentifier asked = true ∧
      ((Table.links facet).slot? asked).isSome = true)
    (hslots : asked (.links facet) (Select.ofColumns facet.linksTable columns) = slots)
    (hname : isIdentifier column = true) (hslot : (Table.links facet).slot? column = some (.column index))
    (haffinity : (Table.links facet).affinity (.column index) = .integer)
    (hpiece : piece ∈ pieces values) :
    db.answer ((Select.ofColumns facet.linksTable columns).filtered (.oneOf column piece)) =
      .ok (((db.rows (.links facet)).filter fun row =>
        piece.any fun text => (row.cell (.column index)).equals (Cell.operand .integer text)).map
          (record (.links facet) slots)) := by
  have hasks : (Select.ofColumns facet.linksTable columns).Asks (.links facet) :=
    Select.asks_ofColumns facet.isIdentifier_linksTable (Table.named?_linksTable facet) hcolumns
  have hoperand : (Table.links facet).operand? (.column index) =
      fun text => some (Cell.operand .integer text) := by
    funext text
    rw [Table.operand?, haffinity]
  rw [answer_oneOf hasks rfl rfl rfl hname hslot hpiece, hslots, hoperand]
  simp only [List.filterMap_eq_map', List.any_map]
  rfl

theorem answer_linksByName {facet : Facet} {values piece : List String} (hpiece : piece ∈ pieces values) :
    db.answer ((Select.ofColumns facet.linksTable ["manga_id"]).filtered
        (.oneOf facet.linkColumn piece)) =
      .ok (((db.rows (.links facet)).filter fun row =>
        piece.any fun text => (row.cell (.column 1)).equals (Cell.operand .integer text)).map
          (record (.links facet) [.column 0])) := by
  refine answer_links ?_ ?_ facet.isIdentifier_linkColumn (Table.slot?_links_name facet) rfl hpiece
  · intro column hcolumn
    rw [List.mem_singleton.mp hcolumn, Table.slot?_links_work]
    exact ⟨by decide, rfl⟩
  · simp [asked, Select.ofColumns, Select.namedColumns, Table.slot?_links_work]

theorem answer_linksByWork {facet : Facet} {values piece : List String} (hpiece : piece ∈ pieces values) :
    db.answer ((Select.ofColumns facet.linksTable ["manga_id", facet.linkColumn]).filtered
        (.oneOf "manga_id" piece)) =
      .ok (((db.rows (.links facet)).filter fun row =>
        piece.any fun text => (row.cell (.column 0)).equals (Cell.operand .integer text)).map
          (record (.links facet) [.column 0, .column 1])) := by
  refine answer_links ?_ ?_ (by decide) (Table.slot?_links_work facet) rfl hpiece
  · intro column hcolumn
    rcases List.mem_cons.mp hcolumn with rfl | hcolumn
    · rw [Table.slot?_links_work]
      exact ⟨by decide, rfl⟩
    · rw [List.mem_singleton.mp hcolumn, Table.slot?_links_name]
      exact ⟨facet.isIdentifier_linkColumn, rfl⟩
  · simp [asked, Select.ofColumns, Select.namedColumns, Table.slot?_links_work,
      Table.slot?_links_name]

end Database

/-! ## Identifiers in answers -/

open Database (record)

theorem identsIn_records {table : Table} {slots : List Slot}
    (hlabels : (slots.map table.label).Nodup) {slot : Slot} (hslot : slot ∈ slots) (rows : List Row) :
    identsIn (table.label slot) (rows.map (record table slots)) =
      rows.filterMap fun row => Ident.ofJson? (row.cell slot).toJson := by
  rw [identsIn, List.filterMap_map]
  congr 1
  funext row
  exact Database.inColumn?_record hlabels row hslot

/-- The identifier of a row with a number. -/
def Row.ident (row : Row) : Ident :=
  ⟨toString row.key⟩

theorem ident_of_key (row : Row) : Ident.ofJson? (row.cell .key).toJson = some row.ident := rfl

theorem identsIn_id_works (rows : List Row) :
    identsIn "id" (rows.map (record .works Table.works.slots)) = rows.map Row.ident := by
  have hlabels : (Table.works.slots.map Table.works.label).Nodup := by decide
  have hslot : Slot.key ∈ Table.works.slots := by decide
  have hidents := identsIn_records hlabels hslot rows
  simp only [ident_of_key, List.filterMap_eq_map'] at hidents
  exact hidents

end ComicCatalog
