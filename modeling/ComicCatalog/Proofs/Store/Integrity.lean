import ComicCatalog.Proofs.Store.Equality
import ComicCatalog.Proofs.Store.Soundness

/-! # Integrity of the tables

The constraints of the tables hold of all rows together, whatever is inserted: no row number
comes twice, no name does, what is required is there, and links lead to rows that exist. An
insertion is refused exactly if its row would break one of them, and then nothing has changed.
-/

namespace ComicCatalog

/-- Rows that are inserted into one table one after the other. -/
structure Batch where
  table : String
  columns : List String
  rows : List (List Cell)
  deriving Repr, Inhabited

namespace Row

/-- The value of a row under a column name. -/
def under (row : Row) (table : Table) (column : String) : Cell :=
  ((table.slot? column).map row.cell).getD .null

theorem under_of_slot {table : Table} {column : String} {slot : Slot} (row : Row)
    (hslot : table.slot? column = some slot) : row.under table column = row.cell slot := by
  rw [under, hslot, Option.map_some, Option.getD_some]

/-- A required value is there in every row. -/
def IsComplete (table : Table) (row : Row) : Prop :=
  ∀ (index : Nat) (column : Column), table.columns[index]? = some column →
    column.required = true → row.cell (.column index) ≠ .null

end Row

namespace Database

/-- The database after batches of insertions, of which any may be refused. -/
def inserted (db : Database) (batches : List Batch) : Database :=
  batches.foldl (fun db batch => (db.insertAll batch.table batch.columns batch.rows).1) db

/-- Both ends of a link exist. -/
def Reaches (db : Database) (facet : Facet) (row : Row) : Prop :=
  (∃ work ∈ db.rows .works, row.cell (.column 0) = .integer work.key) ∧
    ∃ name ∈ db.rows (.names facet), row.cell (.column 1) = .integer name.key

/-- Both ends of every link are row numbers. -/
def LinksRows (db : Database) : Prop :=
  ∀ facet, ∀ row ∈ db.rows (.links facet), ∃ work name : Int,
    row.cell (.column 0) = .integer work ∧ row.cell (.column 1) = .integer name

/-- The constraints hold of all tables. Works and names have their row numbers as identifiers. -/
structure Lawful (db : Database) : Prop where
  enforced : db.enforcesLinks = true
  distinct_keys : ∀ table, ((db.rows table).map Row.key).Nodup
  distinct_names : ∀ facet, ((db.rows (.names facet)).map fun row => row.cell (.column 0)).Nodup
  complete : ∀ table, ∀ row ∈ db.rows table, row.IsComplete table
  reaching : ∀ facet, ∀ row ∈ db.rows (.links facet), db.Reaches facet row

/-- The rows as they are read by the names of their columns: works and names have distinct
identifiers, which are whole numbers, works have titles, names are there and distinct, and links
lead from works to names. -/
structure Integral (db : Database) : Prop where
  identifiers : ∀ table, table.keyed = true →
    ∀ row ∈ db.rows table, ∃ n : Int, row.under table "id" = .integer n
  distinct_identifiers : ∀ table, table.keyed = true →
    ((db.rows table).map fun row => row.under table "id").Nodup
  titles : ∀ work ∈ db.rows .works, work.under .works "title" ≠ .null
  names : ∀ facet, ∀ name ∈ db.rows (.names facet), name.under (.names facet) "name" ≠ .null
  distinct_names : ∀ facet,
    ((db.rows (.names facet)).map fun name => name.under (.names facet) "name").Nodup
  links : ∀ facet, ∀ link ∈ db.rows (.links facet),
    (∃ work ∈ db.rows .works,
      link.under (.links facet) "manga_id" = work.under .works "id") ∧
    ∃ name ∈ db.rows (.names facet),
      link.under (.links facet) facet.linkColumn = name.under (.names facet) "id"

variable {db : Database} {table : Table} {row : Row}

/-! ## Rows by the names of their columns -/

theorem under_id (hkeyed : table.keyed = true) (row : Row) :
    row.under table "id" = .integer row.key := by
  cases table with
  | works => exact row.under_of_slot Table.slot?_works_id
  | names facet => exact row.under_of_slot (Table.slot?_names_id facet)
  | links facet => cases hkeyed

/-- Lawful tables are integral: what each column is called and what is required of it say so. -/
theorem Lawful.integral (hdb : db.Lawful) : db.Integral where
  identifiers table hkeyed row _ := ⟨row.key, under_id hkeyed row⟩
  distinct_identifiers table hkeyed := by
    have hids : (fun row : Row => row.under table "id") = Cell.integer ∘ Row.key :=
      funext fun row => under_id hkeyed row
    rw [hids, ← List.map_map]
    exact (hdb.distinct_keys table).map fun _ _ heq => Cell.integer.inj heq
  titles work hwork := by
    rw [work.under_of_slot Table.slot?_works_title]
    exact hdb.complete .works work hwork 0 _ rfl rfl
  names facet name hname := by
    rw [name.under_of_slot (Table.slot?_names_name facet)]
    exact hdb.complete (.names facet) name hname 0 _ rfl rfl
  distinct_names facet := by
    have hnames : (fun name : Row => name.under (.names facet) "name") =
        fun name => name.cell (.column 0) :=
      funext fun name => name.under_of_slot (Table.slot?_names_name facet)
    rw [hnames]
    exact hdb.distinct_names facet
  links facet link hlink := by
    obtain ⟨⟨work, hwork, hfirst⟩, name, hname, hsecond⟩ := hdb.reaching facet link hlink
    refine ⟨⟨work, hwork, ?_⟩, name, hname, ?_⟩
    · rw [link.under_of_slot (Table.slot?_links_work facet), under_id rfl, hfirst]
    · rw [link.under_of_slot (Table.slot?_links_name facet), under_id rfl, hsecond]

/-! ## One more row -/

/-- What no two rows share, the rows with a new one do not share exactly if the new row has
something of its own. -/
theorem nodup_map_withRow_iff {α : Type} (part : Row → α) (hnodup : ((db.rows table).map part).Nodup) :
    (((db.withRow table row).rows table).map part).Nodup ↔
      ∀ other ∈ db.rows table, part other ≠ part row := by
  rw [((perm_rows_withRow db table row).map part).nodup_iff, List.map_cons, List.nodup_cons,
    and_iff_left hnodup, List.mem_map]
  simp

/-! ## What the constraints check -/

theorem missing?_eq_none_iff (hlength : row.cells.length = table.columns.length) :
    missing? table row = none ↔ row.IsComplete table := by
  rw [missing?, List.findSome?_eq_none_iff, Row.IsComplete]
  constructor
  · intro hpresent index column hcolumn hrequired
    have hindex : index < row.cells.length := by
      rw [hlength]
      exact (List.getElem?_eq_some_iff.mp hcolumn).1
    have hpair : (column, row.cells[index]) ∈ table.columns.zip row.cells := by
      apply List.mem_of_getElem? (i := index)
      rw [List.getElem?_zip_eq_some]
      exact ⟨hcolumn, List.getElem?_eq_getElem hindex⟩
    have hcell := hpresent _ hpair
    rw [Row.cell, List.getElem?_eq_getElem hindex, Option.getD_some]
    simpa [hrequired] using hcell
  · rintro hcomplete ⟨column, cell⟩ hpair
    obtain ⟨index, hindex⟩ := List.mem_iff_getElem?.mp hpair
    obtain ⟨hcolumn, hcell⟩ := List.getElem?_zip_eq_some.mp hindex
    have hpresent := hcomplete index column hcolumn
    rw [Row.cell, hcell, Option.getD_some] at hpresent
    cases hrequired : column.required with
    | true => simp [hpresent hrequired]
    | false => simp [hrequired]

/-- The value that a column of texts holds equals nothing but itself. -/
theorem equals_iff_eq {cell other : Cell} (hheld : cell.IsHeld .text) (hpresent : cell ≠ .null) :
    other.equals cell = true ↔ other = cell := by
  constructor
  · apply Cell.eq_of_equals_of_rank
    rcases hheld.text_cases with hnull | ⟨bytes, rfl⟩ | ⟨bytes, rfl⟩
    · exact absurd hnull hpresent
    · exact le_refl 2
    · exact Nat.le_succ 2
  · rintro rfl
    have hsame : other.order other = .eq := (Cell.order_compares other other).eq_eq.mpr rfl
    simp [Cell.equals, hsame, hpresent]

/-- A row number is new, and so is a name. -/
theorem repeated?_eq_none_iff (hnames : ∀ facet, table = .names facet →
      (row.cell (.column 0)).IsHeld .text ∧ row.cell (.column 0) ≠ .null) :
    db.repeated? table row = none ↔ (∀ other ∈ db.rows table, other.key ≠ row.key) ∧
      ∀ facet, table = .names facet →
        ∀ other ∈ db.rows table, other.cell (.column 0) ≠ row.cell (.column 0) := by
  unfold repeated?
  split
  next htaken =>
    have hkey : ¬∀ other ∈ db.rows table, other.key ≠ row.key := by simpa using htaken
    simp [hkey]
  next hfree =>
    have hkey : ∀ other ∈ db.rows table, other.key ≠ row.key := by simpa using hfree
    rw [and_iff_right hkey]
    cases table with
    | works => simp [Table.uniqueColumn?]
    | links facet => simp [Table.uniqueColumn?]
    | names facet =>
        obtain ⟨hheld, hpresent⟩ := hnames facet rfl
        simp [Table.uniqueColumn?, ← equals_iff_eq hheld hpresent]

/-- One end of a link is looked up among the row numbers of its table. -/
theorem points_iff (cell : Cell) (rows : List Row) :
    cell ≠ .null → ((match cell with
      | .null => true
      | .integer n => rows.any fun other => other.key == n
      | _ => false) = true ↔ ∃ other ∈ rows, cell = .integer other.key) := by
  intro hpresent
  cases cell with
  | null => exact absurd rfl hpresent
  | integer n => simp [eq_comm (a := n)]
  | _ => simp

theorem linked_iff (hcomplete : row.IsComplete table) :
    db.linked table row = true ↔ ∀ facet, table = .links facet → db.Reaches facet row := by
  cases table with
  | works => simp [linked, Table.references]
  | names facet => simp [linked, Table.references]
  | links facet =>
      have hwork : row.cell (.column 0) ≠ .null := hcomplete 0 _ rfl rfl
      have hname : row.cell (.column 1) ≠ .null := hcomplete 1 _ rfl rfl
      simp only [Table.links.injEq, forall_eq', Reaches, linked, Table.references, List.all_cons,
        List.all_nil, Bool.and_true, Bool.and_eq_true]
      exact and_congr (points_iff _ _ hwork) (points_iff _ _ hname)

/-! ## Insertions -/

/-- A row keeps the constraints exactly if it is complete, has a number and a name of its own, and
links what exists. -/
theorem lawful_withRow_iff (hdb : db.Lawful) :
    (db.withRow table row).Lawful ↔ row.IsComplete table ∧
      ((∀ other ∈ db.rows table, other.key ≠ row.key) ∧ ∀ facet, table = .names facet →
        ∀ other ∈ db.rows table, other.cell (.column 0) ≠ row.cell (.column 0)) ∧
      ∀ facet, table = .links facet → db.Reaches facet row := by
  constructor
  · intro hnext
    have hrow : row ∈ (db.withRow table row).rows table := mem_rows_withRow.mpr (Or.inl ⟨rfl, rfl⟩)
    refine ⟨hnext.complete table row hrow, ⟨?_, ?_⟩, ?_⟩
    · exact (nodup_map_withRow_iff Row.key (hdb.distinct_keys table)).mp (hnext.distinct_keys table)
    · rintro facet rfl
      exact (nodup_map_withRow_iff _ (hdb.distinct_names facet)).mp (hnext.distinct_names facet)
    · rintro facet rfl
      have hreaches := hnext.reaching facet row hrow
      rwa [Reaches, rows_withRow_of_ne row (by simp), rows_withRow_of_ne row (by simp)] at hreaches
  · rintro ⟨hcomplete, ⟨hkey, hname⟩, hreaches⟩
    refine ⟨hdb.enforced, ?_, ?_, ?_, ?_⟩
    · intro other
      by_cases hother : other = table
      · subst hother
        exact (nodup_map_withRow_iff Row.key (hdb.distinct_keys other)).mpr hkey
      · rw [rows_withRow_of_ne row hother]
        exact hdb.distinct_keys other
    · intro facet
      by_cases hother : .names facet = table
      · subst hother
        exact (nodup_map_withRow_iff _ (hdb.distinct_names facet)).mpr (hname facet rfl)
      · rw [rows_withRow_of_ne row hother]
        exact hdb.distinct_names facet
    · intro other found hfound
      rcases mem_rows_withRow.mp hfound with ⟨rfl, rfl⟩ | hfound
      · exact hcomplete
      · exact hdb.complete other found hfound
    · intro facet found hfound
      have hfar : db.Reaches facet found := by
        rcases mem_rows_withRow.mp hfound with ⟨rfl, rfl⟩ | hfound
        · exact hreaches facet rfl
        · exact hdb.reaching facet found hfound
      -- Rows stay where they are, so what a link reached it still reaches.
      obtain ⟨⟨work, hwork, hfirst⟩, name, hname, hsecond⟩ := hfar
      exact ⟨⟨work, mem_rows_withRow.mpr (Or.inr hwork), hfirst⟩,
        name, mem_rows_withRow.mpr (Or.inr hname), hsecond⟩

/-- The names of new rows are texts or blobs, where they are there. -/
theorem isHeld_name (facet : Facet) (key : Int) (given : List (Slot × Cell)) :
    ((⟨key, newCells (.names facet) given⟩ : Row).cell (.column 0)).IsHeld .text := by
  rw [cell_newCells rfl]
  cases given.lookup (.column 0) with
  | none => exact ⟨rfl, by rintro n ⟨⟩⟩
  | some value => cases value <;> exact ⟨rfl, by rintro n ⟨⟩⟩

/-- A row is added exactly if the tables keep the constraints with it. -/
theorem addRow_eq_ok_iff_lawful (hdb : db.Lawful) {next : Database} {given : List (Slot × Cell)}
    {key : Int} :
    db.addRow table ⟨key, newCells table given⟩ = .ok next ↔
      next.Lawful ∧ next = db.withRow table ⟨key, newCells table given⟩ := by
  rw [addRow_eq_ok_iff, missing?_eq_none_iff (length_newCells table given)]
  have hnames : (⟨key, newCells table given⟩ : Row).IsComplete table → ∀ facet, table = .names facet →
      ((⟨key, newCells table given⟩ : Row).cell (.column 0)).IsHeld .text ∧
        (⟨key, newCells table given⟩ : Row).cell (.column 0) ≠ .null := by
    rintro hcomplete facet rfl
    exact ⟨isHeld_name facet key given, hcomplete 0 _ rfl rfl⟩
  constructor
  · rintro ⟨hcomplete, hrepeated, hlinked, rfl⟩
    refine ⟨(lawful_withRow_iff hdb).mpr ⟨hcomplete, ?_, ?_⟩, rfl⟩
    · exact (repeated?_eq_none_iff (hnames hcomplete)).mp hrepeated
    · exact (linked_iff hcomplete).mp (hlinked hdb.enforced)
  · rintro ⟨hnext, rfl⟩
    obtain ⟨hcomplete, hnew, hreaches⟩ := (lawful_withRow_iff hdb).mp hnext
    refine ⟨hcomplete, (repeated?_eq_none_iff (hnames hcomplete)).mpr hnew, ?_, rfl⟩
    exact fun _ => (linked_iff hcomplete).mpr hreaches

/-- A row gets the number that it asks for, as a column of whole numbers stores that, or the next
one if it asks for none. -/
theorem keyOf_eq_ok_iff {rows : List Row} {value : Cell} {key : Int} :
    keyOf rows value = .ok key ↔ Cell.stored .integer value = .integer key ∨
      Cell.stored .integer value = .null ∧ nextKey? rows = some key := by
  unfold keyOf
  cases Cell.stored .integer value with
  | null => cases nextKey? rows <;> simp
  | _ => simp

/-- An insertion is accepted exactly if it is one of a row into a table that there is, and the
tables keep the constraints with that row. -/
theorem insert_eq_ok_iff_lawful (hdb : db.Lawful) {next : Database} {name : String}
    {columns : List String} {values : List Cell} :
    db.insert name columns values = .ok next ↔ next.Lawful ∧
      ∃ table given key, Table.named? name = some table ∧ assign table columns values = .ok given ∧
        (Cell.stored .integer (askedKey given) = .integer key ∨
          Cell.stored .integer (askedKey given) = .null ∧
            nextKey? (db.rows table) = some key) ∧
        next = db.withRow table ⟨key, newCells table given⟩ := by
  rw [insert_eq_ok_iff]
  constructor
  · rintro ⟨table, given, key, htable, hassign, hkey, hadd⟩
    obtain ⟨hnext, hrow⟩ := (addRow_eq_ok_iff_lawful hdb).mp hadd
    exact ⟨hnext, table, given, key, htable, hassign, keyOf_eq_ok_iff.mp hkey, hrow⟩
  · rintro ⟨hnext, table, given, key, htable, hassign, hkey, hrow⟩
    exact ⟨table, given, key, htable, hassign, keyOf_eq_ok_iff.mpr hkey,
      (addRow_eq_ok_iff_lawful hdb).mpr ⟨hnext, hrow⟩⟩

/-! ## Runs of insertions -/

theorem lawful_empty : (empty true).Lawful where
  enforced := rfl
  distinct_keys _ := List.nodup_nil
  distinct_names _ := List.nodup_nil
  complete _ _ hrow := nomatch hrow
  reaching _ _ hrow := nomatch hrow

/-- What insertions lead to is lawful where links are enforced. -/
theorem Reachable.lawful (hdb : db.Reachable) (henforces : db.enforcesLinks = true) :
    db.Lawful := by
  induction hdb with
  | empty enforcesLinks =>
      cases henforces
      exact lawful_empty
  | insert hdb hvalues hinsert ih =>
      obtain ⟨table, given, key, -, -, -, hadd⟩ := insert_eq_ok_iff.mp hinsert
      obtain ⟨-, -, -, rfl⟩ := addRow_eq_ok_iff.mp hadd
      exact ((addRow_eq_ok_iff_lawful (ih henforces)).mp hadd).1

/-- Where links are enforced, every reachable link has two row numbers. -/
theorem Reachable.linksRows (hdb : db.Reachable) (henforces : db.enforcesLinks = true) :
    db.LinksRows := by
  intro facet row hrow
  obtain ⟨⟨work, -, hwork⟩, name, -, hname⟩ := (hdb.lawful henforces).reaching facet row hrow
  exact ⟨work.key, name.key, hwork, hname⟩

theorem Lawful.insertAll (hdb : db.Lawful) (name : String) (columns : List String)
    (rows : List (List Cell)) : (db.insertAll name columns rows).1.Lawful := by
  induction rows generalizing db with
  | nil => exact hdb
  | cons values rest ih =>
      rw [Database.insertAll]
      split
      next next hinsert => exact ih ((insert_eq_ok_iff_lawful hdb).mp hinsert).1
      next => exact hdb

theorem Lawful.inserted (hdb : db.Lawful) (batches : List Batch) :
    (db.inserted batches).Lawful := by
  induction batches generalizing db with
  | nil => exact hdb
  | cons batch rest ih => exact ih (hdb.insertAll batch.table batch.columns batch.rows)

/-- What is refused changes nothing. -/
theorem inserted_of_error {name : String} {columns : List String} {values : List Cell}
    {fault : DatabaseFault} (hrefused : db.insert name columns values = .error fault) :
    db.inserted [⟨name, columns, [values]⟩] = db := by
  simp only [Database.inserted, List.foldl_cons, List.foldl_nil, Database.insertAll, hrefused]

/-- Whatever is inserted into an empty database that enforces links, the rows that it stores are
integral. What is refused leaves every table as it was. A row is refused exactly if its table,
its columns or a number for it do not exist, or the constraints would not hold with it; otherwise
its table gets that row, and nothing else changes. -/
theorem inserts_keep_integrity (batches : List Batch) :
    let db := (empty true).inserted batches
    db.Integral ∧ db.Lawful ∧ ∀ name columns values,
      (∀ fault, db.insert name columns values = .error fault →
        ∀ table, (db.inserted [⟨name, columns, [values]⟩]).rows table = db.rows table) ∧
      ∀ next, db.insert name columns values = .ok next ↔ next.Lawful ∧
        ∃ table given key, Table.named? name = some table ∧
          assign table columns values = .ok given ∧
          (Cell.stored .integer (askedKey given) = .integer key ∨
            Cell.stored .integer (askedKey given) = .null ∧
              nextKey? (db.rows table) = some key) ∧
          next = db.withRow table ⟨key, newCells table given⟩ := by
  intro db
  have hdb : db.Lawful := lawful_empty.inserted batches
  refine ⟨hdb.integral, hdb, fun name columns values => ⟨?_, ?_⟩⟩
  · intro fault hrefused table
    rw [inserted_of_error hrefused]
  · exact fun next => insert_eq_ok_iff_lawful hdb

/-- The texts `03` and `3.0` ask for the number 3, which comes once. -/
example : (((empty true).inserted [⟨"tags", ["id", "name"], [[.ofText "03", .ofText "dog"]]⟩,
      ⟨"tags", ["id", "name"], [[.ofText "3.0", .ofText "cat"]]⟩]).rows (.names .tag)) =
    [⟨3, [.ofText "dog"]⟩] := by
  decide +kernel

end Database

end ComicCatalog
