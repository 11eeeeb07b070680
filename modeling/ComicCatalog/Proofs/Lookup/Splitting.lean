import ComicCatalog.Proofs.Lookup.Among
import ComicCatalog.Proofs.Store.Equality
import ComicCatalog.Proofs.Store.Soundness
import ComicCatalog.Proofs.Store.Ties

/-! # Many values at once and in pieces

A database that is asked for the rows with one of many values finds the same rows whether
all values stand in one select or each piece of them in its own, if no stored value equals
two of them. There is one proviso. A value that is left alone in a piece ties the column, so
that other conditions on the lowercase form of the column look at the value instead of at
the rows. They see the same there, unless the value is the least whole number.
-/

namespace ComicCatalog

namespace Lookup

variable {db : Database} {select : Select} {column : String} {values : List String}

/-- Only the last value can be alone in a piece. -/
theorem of_singleton_mem_pieces {α : Type} {values : List α} {value : α}
    (hpiece : [value] ∈ pieces values) :
    values.getLast? = some value ∧ values.length % maxAmong = 1 := by
  fun_induction pieces values with
  | case1 => cases hpiece
  | case2 first rest ih =>
      rcases List.mem_cons.mp hpiece with hsame | hpiece
      · obtain ⟨rfl, hrest⟩ := List.cons.inj hsame
        have hnone : rest = [] := by simpa [maxAmong] using hrest.symm
        rw [hnone]
        exact ⟨rfl, rfl⟩
      · obtain ⟨hlast, hlength⟩ := ih hpiece
        have hlong : maxAmong - 1 < rest.length := by
          by_contra hshort
          rw [List.drop_eq_nil_of_le (not_lt.mp hshort)] at hlast
          cases hlast
        rw [List.length_drop] at hlength
        constructor
        · rw [List.getLast?_drop, if_neg (not_le.mpr hlong)] at hlast
          rw [List.getLast?_cons, hlast]
          rfl
        · rw [List.length_cons]
          simp only [maxAmong] at hlong hlength ⊢
          omega

/-- A lookup that has a result has asked one select for each piece of the values. -/
theorem asked_among {found : List Record}
    (hfound : ((among select column values).run Source.respond (.database db)).result = .ok found) :
    ((among select column values).run Source.respond (.database db)).asked =
      (pieces values).map fun piece => select.filtered (.oneOf column piece) := by
  have hcourse := course_run (among select column values) Source.respond (.database db)
  rw [hfound] at hcourse
  obtain ⟨answers, hlength, hexchanges, -, -⟩ := course_among hcourse
  rw [← Responder.map_fst_exchanges Source.respond
    ((among select column values).run Source.respond (.database db)).asked (.database db),
    hexchanges, amongExchanges, List.map_zipWith]
  rw [← length_pieces] at hlength
  have hfirst := List.map_fst_zip (Nat.le_of_eq hlength.symm)
  conv_rhs => rw [← hfirst, List.map_map, List.zip, List.map_zipWith]
  rfl

end Lookup

open Lookup

namespace Database

variable {db : Database} {select : Select} {column : String} {values : List String}

/-- No stored value of a column equals both texts. -/
def Separates (db : Database) (tableName column first second : String) : Prop :=
  ∀ table, Table.named? tableName = some table → ∀ row ∈ db.rows table,
    ¬ (table.equalsIn column first row = true ∧ table.equalsIn column second row = true)

/-- No table holds a NaN: the database stores nothing in its place. -/
def HoldsNoNaN (db : Database) : Prop :=
  ∀ table, ∀ row ∈ db.rows table, ∀ cell ∈ row.cells, cell.isNaN = false

/-- A select looks at the lowercase form of a column of whole numbers, in which a value that
equals the text is the least whole number. -/
def FoldsLeast (db : Database) (select : Select) (column text : String) : Prop :=
  ∃ table index row, Table.named? select.table = some table ∧
    table.slot? column = some (.column index) ∧ table.affinity (.column index) = .integer ∧
    (∃ condition ∈ select.conditions, condition.folds = true ∧
      table.slot? condition.column = some (.column index)) ∧
    row ∈ db.rows table ∧ table.equalsIn column text row = true ∧
    (row.cell (.column index)).equals (.integer Word.minSigned) = true

variable {table : Table} {row : Row} {slot : Slot}

/-- A slot stores a text as the very value of a row that the text equals, if that is not the
least whole number. -/
theorem Sound.stored_eq_of_equalsAt (hsound : db.Sound) (hnan : db.HoldsNoNaN)
    (hrow : row ∈ db.rows table)
    (hleast : ∀ index, slot = .column index → table.affinity slot = .integer →
      (row.cell slot).equals (.integer Word.minSigned) = false)
    {text : String} (hequals : table.equalsAt slot text row = true) :
    Cell.stored (table.affinity slot) (.ofText text) = row.cell slot := by
  cases slot with
  | key =>
      -- A key is looked up as a row number and not compared, so the number itself is read.
      obtain ⟨cell, hcell, hsame⟩ := Option.any_eq_true _ _ |>.mp hequals
      obtain ⟨n, hnumber, rfl⟩ := Option.map_eq_some_iff.mp hcell
      have hkey : row.key = n := Cell.equals_integer.mp hsame
      rw [Row.cell, hkey]
      exact Cell.stored_of_rowNumber? hnumber
  | column index =>
      have hsame : (row.cell (.column index)).equals
        (Cell.operand (table.affinity (.column index)) text) = true := hequals
      cases hcolumn : table.columns[index]? with
      | none =>
          -- A column that the table lacks compares as texts do.
          have haffinity : table.affinity (.column index) = .text := by
            rw [Table.affinity, hcolumn, Option.map_none, Option.getD_none]
          rw [haffinity] at hsame ⊢
          exact (Cell.eq_of_equals_text hsame).symm
      | some column =>
          have haffinity : table.affinity (.column index) = column.affinity := by
            rw [Table.affinity, hcolumn, Option.map_some, Option.getD_some]
          have hheld := hsound.held table row hrow index column hcolumn
          rw [← haffinity] at hheld
          have hnumber : (row.cell (.column index)).isNaN = false := by
            rw [Row.cell]
            cases hcell : row.cells[index]? with
            | none => rfl
            | some cell => exact hnan table row hrow cell (List.mem_of_getElem? hcell)
          exact hheld.stored_eq_of_equals hnumber (hleast index rfl) hsame

/-- Beside a membership that the row meets, conditions on the lowercase form of the column see
the stored value, if the texts that equal it are stored as it is. -/
theorem seen_beside
    (hstored : ∀ text, table.equalsAt slot text row = true →
      Cell.stored (table.affinity slot) (.ofText text) = row.cell slot)
    (hcolumn : table.slot? column = some slot) {others : List Condition}
    (hmet : ∀ condition ∈ select.conditions, condition.folds = false →
      meets table others row condition = true) {texts : List String}
    (hequals : texts.any (fun text => table.equalsIn column text row) = true) :
    seen table (select.conditions ++ [.oneOf column texts]) row slot = (row.cell slot).folded? := by
  apply seen_eq
  intro condition hcondition hslot text htie
  suffices hsame : table.equalsAt slot text row = true by rw [hstored text hsame]
  rcases List.mem_append.mp hcondition with hcondition | hcondition
  · obtain ⟨hfolds, hmeets⟩ := meets_tie table others row htie
    have hsame := hmet condition hcondition hfolds
    rwa [hmeets, Table.equalsIn, hslot, Option.any_some] at hsame
  · cases List.mem_singleton.mp hcondition
    cases tie?_oneOf htie
    rwa [List.any_cons, List.any_nil, Bool.or_false, Table.equalsIn, hcolumn, Option.any_some] at hequals

/-- Two or more values tie nothing. -/
theorem seen_of_not_singleton {texts : List String} (htexts : ∀ text, texts ≠ [text]) :
    seen table (select.conditions ++ [.oneOf column texts]) row slot =
      seen table select.conditions row slot := by
  have htie : (Condition.oneOf column texts).tie? = none := by
    by_contra hsome
    obtain ⟨text, htie⟩ := Option.ne_none_iff_exists'.mp hsome
    exact htexts text (tie?_oneOf htie)
  rw [seen, tied?_append_of_untied (Or.inl htie), seen]

/-- The conditions of a select are met alike beside all values and beside a piece of them, by
rows that equal a value of the piece. -/
theorem all_meets_piece (hsound : db.Sound) (hnan : db.HoldsNoNaN)
    (htable : Table.named? select.table = some table)
    (hleast : values.length % maxAmong = 1 →
      ∀ last, values.getLast? = some last → ¬ db.FoldsLeast select column last)
    {piece : List String} (hpiece : piece ∈ pieces values) (hrow : row ∈ db.rows table)
    (hequals : piece.any (fun text => table.equalsIn column text row) = true) :
    select.conditions.all (meets table (select.conditions ++ [.oneOf column piece]) row) =
      select.conditions.all (meets table (select.conditions ++ [.oneOf column values]) row) := by
  apply all_meets_congr
  intro hmet condition hcondition hfolds slot hslot
  by_cases hcolumn : table.slot? column = some slot
  · by_cases halone : ∃ last, piece = [last]
    · -- The value of the row is stored as the last value is, and neither is the least.
      obtain ⟨last, rfl⟩ := halone
      obtain ⟨hlast, hlength⟩ := of_singleton_mem_pieces hpiece
      rw [List.any_cons, List.any_nil, Bool.or_false] at hequals
      have hequals' : values.any (fun text => table.equalsIn column text row) = true :=
        List.any_eq_true.mpr ⟨last, List.mem_of_getLast? hlast, hequals⟩
      have hstored : ∀ text, table.equalsAt slot text row = true →
          Cell.stored (table.affinity slot) (.ofText text) = row.cell slot := by
        intro text hsame
        apply hsound.stored_eq_of_equalsAt hnan hrow _ hsame
        rintro index rfl haffinity
        by_contra hother
        exact hleast hlength last hlast ⟨table, index, row, htable, hcolumn, haffinity,
          ⟨condition, hcondition, hfolds, hslot⟩, hrow, hequals, Bool.not_eq_false _ |>.mp hother⟩
      rw [seen_beside hstored hcolumn hmet (by simpa using hequals),
        seen_beside hstored hcolumn hmet hequals']
    · -- Without a single value nothing is tied to the column, neither beside the piece nor beside all.
      have hpiece' : ∀ text, piece ≠ [text] := fun text hsame => halone ⟨text, hsame⟩
      have hvalues : ∀ text, values ≠ [text] := by
        rintro text rfl
        have hsingle : pieces [text] = [[text]] := by simp [pieces, maxAmong]
        rw [hsingle] at hpiece
        exact hpiece' text (List.mem_singleton.mp hpiece)
      rw [seen_of_not_singleton hpiece', seen_of_not_singleton hvalues]
  · -- A condition on another column does not see the membership.
    have hother : ∀ texts : List String,
        seen table (select.conditions ++ [.oneOf column texts]) row slot =
          seen table select.conditions row slot := by
      intro texts
      have huntied := @tied?_append_of_untied table select.conditions (.oneOf column texts) slot
        (Or.inr hcolumn)
      rw [seen, huntied, seen]
    rw [hother, hother]

/-- The rows that are found among some texts. -/
theorem rows_of_answer_oneOf (horder : select.order = none) (hlimit : select.limit = none)
    (htable : Table.named? select.table = some table) {texts : List String} {shown : List Record}
    (hanswer : db.answer (select.filtered (.oneOf column texts)) = .ok shown) :
    shown = ((db.rows table).filter fun row => texts.any fun text =>
      select.conditions.all (meets table (select.conditions ++ [.oneOf column texts]) row) &&
        table.equalsIn column text row).map (record table (asked table select)) := by
  obtain ⟨other, hother, found, hfound, rfl⟩ := selected_of_answer hanswer
  cases htable.symm.trans hother
  have hlimit' : (select.filtered (.oneOf column texts)).limit = none := hlimit
  have horder' : (select.filtered (.oneOf column texts)).order = none := horder
  have hfilter := selected_eq_filter hlimit' hfound
  simp only [hlimit', sorted_of_no_order horder', hfilter]
  simp only [Select.filtered, List.all_append, List.all_cons, List.all_nil, Bool.and_true,
    meets_oneOf, List.and_any_distrib_left]
  rfl

/-- The rows that are found among the texts of a piece, by what they meet beside all values. -/
theorem rows_of_answer_piece (hsound : db.Sound) (hnan : db.HoldsNoNaN) (horder : select.order = none)
    (hlimit : select.limit = none) (htable : Table.named? select.table = some table)
    (hleast : values.length % maxAmong = 1 →
      ∀ last, values.getLast? = some last → ¬ db.FoldsLeast select column last)
    {piece : List String} (hpiece : piece ∈ pieces values) {shown : List Record}
    (hanswer : db.answer (select.filtered (.oneOf column piece)) = .ok shown) :
    shown = ((db.rows table).filter fun row => piece.any fun text =>
      select.conditions.all (meets table (select.conditions ++ [.oneOf column values]) row) &&
        table.equalsIn column text row).map (record table (asked table select)) := by
  rw [rows_of_answer_oneOf horder hlimit htable hanswer]
  congr 1
  apply List.filter_congr
  intro row hrow
  rw [← List.and_any_distrib_left, ← List.and_any_distrib_left]
  cases hequals : piece.any fun text => table.equalsIn column text row with
  | false => rw [Bool.and_false, Bool.and_false]
  | true => rw [all_meets_piece hsound hnan htable hleast hpiece hrow hequals]

/-- The digits of two whole numbers equal no stored whole number both. -/
theorem separates_toString {name : String} {first second : Int} (hne : first ≠ second)
    (hfirst : Word.Fits first) (hsecond : Word.Fits second)
    (hcells : ∀ table, Table.named? name = some table → ∃ index,
      table.slot? column = some (.column index) ∧ table.affinity (.column index) = .integer ∧
      ∀ row ∈ db.rows table, ∃ n, Word.isSigned n = true ∧ row.cell (.column index) = .integer n) :
    db.Separates name column (toString first) (toString second) := by
  rintro table htable row hrow ⟨hsame, hsame'⟩
  obtain ⟨index, hslot, haffinity, hintegers⟩ := hcells table htable
  obtain ⟨n, hword, hcell⟩ := hintegers row hrow
  have hequals : ∀ m, Word.Fits m → table.equalsIn column (toString m) row = true → m = n := by
    intro m hm hsame
    rw [Table.equalsIn, hslot, Option.any_some, Table.equalsAt, hcell, Table.operand?, Option.any_some,
      haffinity] at hsame
    exact (Cell.equals_operand_toString hword hm).mp hsame
  exact hne ((hequals first hfirst hsame).trans (hequals second hsecond hsame').symm)

theorem sample_pages {row : Row} (hrow : row ∈ sample.rows .works) :
    ∃ n : Int, 0 ≤ n ∧ n ≤ 100 ∧ row.cell (.column 2) = .integer n := by
  have hcells : ∀ row ∈ sample.rows .works, row.cell (.column 2) ∈
      [Cell.integer 20, .integer 35, .integer 12, .integer 14, .integer 18] := by decide
  have hcell := hcells row hrow
  simp only [List.mem_cons, List.not_mem_nil, or_false] at hcell
  rcases hcell with hcell | hcell | hcell | hcell | hcell
  all_goals exact ⟨_, by decide, by decide, hcell⟩

theorem sample_holdsNoNaN : sample.HoldsNoNaN := by
  intro table row hrow cell hcell
  have hall := @all_rows sample (fun _ rows => rows.all fun row => row.cells.all fun cell => !cell.isNaN)
    (fun _ => rfl) (by decide) table
  simpa using List.all_eq_true.mp (List.all_eq_true.mp hall row hrow) cell hcell

/-- If no stored value equals two of the values, asking for them piece by piece finds the same
rows as asking for all at once, unless the last value is alone in its piece and is the least
whole number in a column whose lowercase form the select looks at. There is one select for
each piece, no piece is empty or too long, and no value asks nothing. -/
theorem among_finds_rows_of_select (hsound : db.Sound) (hnan : db.HoldsNoNaN)
    (horder : select.order = none) (hlimit : select.limit = none)
    (hapart : values.Pairwise (db.Separates select.table column))
    (hleast : values.length % maxAmong = 1 →
      ∀ last, values.getLast? = some last → ¬ db.FoldsLeast select column last)
    {found all : List Record}
    (hfound : ((among select column values).run Source.respond (.database db)).result = .ok found)
    (hall : db.answer (select.filtered (.oneOf column values)) = .ok all) :
    found.Perm all ∧
    (∃ cut : List (List String), cut.flatten = values ∧
      (∀ piece ∈ cut, piece ≠ [] ∧ piece.length ≤ maxAmong) ∧
      cut.length = values.length ⌈/⌉ maxAmong ∧
      ((among select column values).run Source.respond (.database db)).asked =
        cut.map fun piece => select.filtered (.oneOf column piece)) ∧
    (values = [] → found = [] ∧
      ((among select column values).run Source.respond (.database db)).asked = []) := by
  have hasked := asked_among hfound
  refine ⟨?_, ⟨pieces values, flatten_pieces values, fun piece hpiece =>
    ⟨ne_nil_of_mem_pieces hpiece, length_le_of_mem_pieces hpiece⟩, length_pieces values, hasked⟩, ?_⟩
  · obtain ⟨table, hnamed, -⟩ := selected_of_answer hall
    have htable : Table.named? select.table = some table := hnamed
    rw [(run_database db _).1] at hfound
    -- Rows that equal a value of the piece meet the other conditions as they do beside all values.
    have hpieces : ∀ piece ∈ pieces values, db.answer (select.filtered (.oneOf column piece)) =
        .ok (((db.rows table).filter fun row => piece.any fun text =>
          select.conditions.all (meets table (select.conditions ++ [.oneOf column values]) row) &&
            table.equalsIn column text row).map (record table (asked table select))) := by
      intro piece hpiece
      obtain ⟨shown, hshown⟩ := answered_of_resultOn hfound (select.filtered (.oneOf column piece)) <| by
        rw [hasked]
        exact List.mem_map_of_mem hpiece
      rw [hshown, rows_of_answer_piece hsound hnan horder hlimit htable hleast hpiece hshown]
    have hrows := resultOn_rowsAmong values hpieces
    rw [hfound, Except.ok.injEq] at hrows
    rw [hrows, rows_of_answer_oneOf horder hlimit htable hall]
    apply List.Perm.map
    apply perm_rowsAmong
    apply hapart.imp
    intro first second hseparates row hrow hboth
    simp only [Bool.and_eq_true] at hboth
    exact hseparates table htable row hrow ⟨hboth.1.2, hboth.2.2⟩
  · rintro rfl
    have hnone : pieces ([] : List String) = [] := by simp [pieces]
    refine ⟨?_, by rw [hasked, hnone, List.map_nil]⟩
    rw [(run_database db _).1, among, hnone] at hfound
    exact (Except.ok.inj hfound).symm

/-- The sample catalog finds the works of 501 page numbers in two pieces, the second of which
holds one number alone. -/
theorem among_finds_rows_of_select_alone :
    ∃ found all,
      ((among ((Select.all "manga").filtered (.contains "pages" "2")) "pages"
        ((List.range 501).map fun n : Nat => toString (n : Int))).run Source.respond
          (.database sample)).result = .ok found ∧
      sample.answer (((Select.all "manga").filtered (.contains "pages" "2")).filtered
        (.oneOf "pages" ((List.range 501).map fun n : Nat => toString (n : Int)))) = .ok all ∧
      found.Perm all ∧
      ((among ((Select.all "manga").filtered (.contains "pages" "2")) "pages"
        ((List.range 501).map fun n : Nat => toString (n : Int))).run Source.respond
          (.database sample)).asked.length = 2 := by
  have htable : Table.named? "manga" = some .works := by decide
  have hslot : Table.slot? .works "pages" = some (.column 2) := by decide
  have hasks : ((Select.all "manga").filtered (.contains "pages" "2")).Asks .works :=
    (Select.asks_all (by decide) htable).filtered (by decide) (by decide) (by decide)
  have hanswers : ∀ texts : List String, texts.length ≤ 501 → ∃ shown,
      sample.answer (((Select.all "manga").filtered (.contains "pages" "2")).filtered
        (.oneOf "pages" texts)) = .ok shown := by
    intro texts htexts
    have hfits : (((Select.all "manga").filtered (.contains "pages" "2")).filtered
        (.oneOf "pages" texts)).FitsStatement := by
      have hmost : texts.length < Statement.maxValues := htexts.trans_lt (by decide)
      simpa [Select.FitsStatement, Select.filtered, Select.all, Condition.bound, Condition.contains,
        Condition.oneOf] using hmost
    have hname : isIdentifier "pages" = true := by decide
    have hcolumn : (Table.slot? .works "pages").isSome = true := by decide
    apply exists_answer_of_asks (hasks.filtered hfits hname hcolumn)
    intro condition hcondition
    rcases List.mem_append.mp hcondition with hcondition | hcondition
    · cases List.mem_singleton.mp hcondition
      decide +kernel
    · cases List.mem_singleton.mp hcondition
      rw [rowTest, Condition.oneOf, hslot]
      simp [Matcher.ofTest]
  choose! answered hanswered using hanswers
  -- The values are made opaque, so that nothing computes the 501 texts.
  generalize hvalues : ((List.range 501).map fun n : Nat => toString (n : Int)) = values
  have hfound := (run_database sample _).1.trans
    (@resultOn_among sample ((Select.all "manga").filtered (.contains "pages" "2")) "pages" values
      answered fun piece hpiece =>
        hanswered piece ((length_le_of_mem_pieces hpiece).trans (by decide)))
  have hanswer := hanswered values (by rw [← hvalues, List.length_map, List.length_range])
  have hapart : values.Pairwise (sample.Separates "manga" "pages") := by
    have hfits : ∀ n ∈ List.range 501, Word.Fits (n : Int) := by
      intro n hn
      have hbound := List.mem_range.mp hn
      simp only [Word.Fits, Word.minSigned, Word.maxUnsigned]
      omega
    rw [← hvalues, List.pairwise_map]
    apply List.pairwise_lt_range.imp_of_mem
    intro first second hfirst hsecond hlt
    apply separates_toString (by omega) (hfits first hfirst) (hfits second hsecond)
    intro table hnamed
    cases htable.symm.trans hnamed
    refine ⟨2, hslot, rfl, fun row hrow => ?_⟩
    obtain ⟨n, hlow, hhigh, hcell⟩ := sample_pages hrow
    exact ⟨n, Word.isSigned_iff.mpr (by omega), hcell⟩
  -- No work of the sample has the least whole number of pages.
  have hleast : ∀ last, ¬ sample.FoldsLeast ((Select.all "manga").filtered (.contains "pages" "2"))
      "pages" last := by
    rintro last ⟨table, index, row, hnamed, hcolumn, -, -, hrow, -, hequals⟩
    cases htable.symm.trans hnamed
    cases hslot.symm.trans hcolumn
    obtain ⟨n, hlow, hhigh, hcell⟩ := sample_pages hrow
    rw [hcell, Cell.equals_integer, Word.minSigned] at hequals
    omega
  obtain ⟨hperm, ⟨cut, -, -, hlength, hasked⟩, -⟩ :=
    @among_finds_rows_of_select sample ((Select.all "manga").filtered (.contains "pages" "2")) "pages"
      values sample_sound sample_holdsNoNaN rfl rfl hapart (fun _ last _ => hleast last) _ _ hfound
      hanswer
  refine ⟨_, _, hfound, hanswer, hperm, ?_⟩
  rw [hasked, List.length_map, hlength, ← hvalues, List.length_map, List.length_range]
  rfl

end Database

end ComicCatalog
