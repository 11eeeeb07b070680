import ComicCatalog.Proofs.Store.Cells
import ComicCatalog.Store.Sample

/-! # Sound databases

What a database guarantees of its tables: the row numbers ascend, each fits a word, and
every cell is as its column stores values. Insertion keeps these guarantees.
-/

namespace ComicCatalog

namespace Database

/-- The guarantees of every table. -/
structure Sound (db : Database) : Prop where
  ascending : ∀ table, (db.rows table).Pairwise fun a b => a.key < b.key
  keys_isSigned : ∀ table, ∀ row ∈ db.rows table, Word.isSigned row.key = true
  held : ∀ table, ∀ row ∈ db.rows table, ∀ (index : Nat) (column : Column),
    table.columns[index]? = some column → (row.cell (.column index)).IsHeld column.affinity

/-- The databases that insertions lead to from an empty one. Inserted whole numbers are
those of 64 bits. -/
inductive Reachable : Database → Prop
  | empty (enforcesLinks : Bool) : Reachable (empty enforcesLinks)
  | insert {db next : Database} {table : String} {columns : List String} {values : List Cell}
      (hdb : Reachable db)
      (hvalues : ∀ n, Cell.integer n ∈ values → Word.isSigned n = true)
      (hinsert : db.insert table columns values = .ok next) : Reachable next

/-! ## Rows in their place -/

theorem perm_place (row : Row) (rows : List Row) : (place row rows).Perm (row :: rows) := by
  induction rows with
  | nil => exact List.Perm.refl _
  | cons next rest ih =>
      rw [place]
      split
      next => exact List.Perm.refl _
      next => exact (ih.cons next).trans (List.Perm.swap row next rest)

theorem pairwise_place {row : Row} {rows : List Row} (hrows : rows.Pairwise fun a b => a.key < b.key)
    (hnew : ∀ other ∈ rows, other.key ≠ row.key) :
    (place row rows).Pairwise fun a b => a.key < b.key := by
  induction rows with
  | nil => simp [place]
  | cons next rest ih =>
      obtain ⟨hnext, hrest⟩ := List.pairwise_cons.mp hrows
      rw [place]
      split
      next hlt =>
        refine List.pairwise_cons.mpr ⟨?_, hrows⟩
        intro other hother
        rcases List.mem_cons.mp hother with rfl | hother
        · exact hlt
        · exact hlt.trans (hnext other hother)
      next hge =>
        have hne := hnew next List.mem_cons_self
        refine List.pairwise_cons.mpr ⟨?_, ih hrest fun other hother =>
          hnew other (List.mem_cons_of_mem next hother)⟩
        intro other hother
        rcases List.mem_cons.mp ((perm_place row rest).mem_iff.mp hother) with rfl | hother
        · omega
        · exact hnext other hother

/-- The database with one more row. -/
def withRow (db : Database) (table : Table) (row : Row) : Database :=
  db.withRows table (place row (db.rows table))

section

variable {db : Database} {table : Table} {row : Row}

theorem perm_rows_withRow (db : Database) (table : Table) (row : Row) :
    ((db.withRow table row).rows table).Perm (row :: db.rows table) := by
  rw [withRow, rows_withRows_self]
  exact perm_place row _

theorem rows_withRow_of_ne (row : Row) {other : Table} (hne : other ≠ table) :
    (db.withRow table row).rows other = db.rows other :=
  rows_withRows_of_ne db _ hne

theorem mem_rows_withRow {other : Table} {found : Row} :
    found ∈ (db.withRow table row).rows other ↔
      (other = table ∧ found = row) ∨ found ∈ db.rows other := by
  by_cases hother : other = table
  · subst hother
    rw [(perm_rows_withRow db other row).mem_iff, List.mem_cons]
    simp
  · rw [rows_withRow_of_ne row hother]
    simp [hother]

end

/-! ## The number of a new row -/

theorem freeKey?_isSigned {n key : Int} {rows : List Row} (hn : n ≤ Word.maxSigned)
    (hrows : ∀ row ∈ rows, Word.isSigned row.key = true) (hkey : freeKey? n rows = some key) :
    Word.isSigned key = true := by
  induction rows generalizing n with
  | nil =>
      rw [freeKey?] at hkey
      split at hkey
      next hmin =>
        cases hkey
        exact Word.isSigned_iff.mpr ⟨hmin, hn⟩
      next => cases hkey
  | cons row rest ih =>
      rw [freeKey?] at hkey
      split at hkey
      next hlt =>
        cases hkey
        have hrow := Word.isSigned_iff.mp (hrows row List.mem_cons_self)
        exact Word.isSigned_iff.mpr ⟨by omega, hn⟩
      next => exact ih (by omega) (fun other hother => hrows other (List.mem_cons_of_mem row hother)) hkey

theorem nextKey?_isSigned {rows : List Row} {key : Int}
    (hrows : ∀ row ∈ rows, Word.isSigned row.key = true) (hkey : nextKey? rows = some key) :
    Word.isSigned key = true := by
  unfold nextKey? at hkey
  split at hkey
  next row hlast =>
    have hrow := Word.isSigned_iff.mp (hrows row (List.mem_of_getLast? hlast))
    split at hkey
    next hlt =>
      cases hkey
      simp only [Word.maxSigned] at hlt
      exact Word.isSigned_iff.mpr ⟨by omega, by omega⟩
    next =>
      exact freeKey?_isSigned (le_refl _) (fun other hother => hrows other (List.mem_reverse.mp hother))
        hkey
  next =>
    cases hkey
    decide

theorem keyOf_isSigned {rows : List Row} {value : Cell} {key : Int}
    (hrows : ∀ row ∈ rows, Word.isSigned row.key = true)
    (hvalue : ∀ n, value = .integer n → Word.isSigned n = true) (hkey : keyOf rows value = .ok key) :
    Word.isSigned key = true := by
  unfold keyOf at hkey
  split at hkey
  · split at hkey
    next hnext =>
      cases hkey
      exact nextKey?_isSigned hrows hnext
    next => cases hkey
  next hn =>
    cases hkey
    exact (Cell.isHeld_stored .integer hvalue).isSigned key hn
  · cases hkey

/-! ## One insertion -/

theorem bind_eq_ok {ε α β : Type} {first : Except ε α} {next : α → Except ε β} {result : β} :
    first >>= next = .ok result ↔ ∃ value, first = .ok value ∧ next value = .ok result := by
  cases first <;> simp [bind, Except.bind]

theorem mem_of_lookup {given : List (Slot × Cell)} {slot : Slot} {value : Cell}
    (hvalue : given.lookup slot = some value) : (slot, value) ∈ given := by
  obtain ⟨before, after, rfl, -⟩ := List.lookup_eq_some_iff.mp hvalue
  simp

theorem mem_of_askedKey {given : List (Slot × Cell)} {n : Int}
    (hasked : askedKey given = .integer n) : (.key, .integer n) ∈ given := by
  rw [askedKey] at hasked
  cases hvalue : given.reverse.lookup .key with
  | none =>
      rw [hvalue] at hasked
      cases hasked
  | some value =>
      rw [hvalue, Option.getD_some] at hasked
      exact List.mem_reverse.mp (mem_of_lookup (hasked ▸ hvalue))

/-- What a new row is given is among the values of its insertion. -/
theorem mem_of_assign {table : Table} {columns : List String} {values : List Cell}
    {given : List (Slot × Cell)} {slot : Slot} {value : Cell}
    (hassign : assign table columns values = .ok given) (hvalue : (slot, value) ∈ given) :
    value ∈ values := by
  obtain ⟨slots, -, hzip⟩ := bind_eq_ok.mp hassign
  split at hzip
  next =>
    cases hzip
    exact (List.of_mem_zip hvalue).2
  next => cases hzip

/-- An insertion stores the row that it is for, under the number that it gets. -/
theorem insert_eq_ok_iff {db next : Database} {name : String} {columns : List String}
    {values : List Cell} :
    db.insert name columns values = .ok next ↔
      ∃ table given key, Table.named? name = some table ∧ assign table columns values = .ok given ∧
        keyOf (db.rows table) (askedKey given) = .ok key ∧
        db.addRow table ⟨key, newCells table given⟩ = .ok next := by
  unfold insert
  cases htable : Table.named? name with
  | none => simp
  | some table => simp only [bind_eq_ok, Option.some.injEq, existsAndEq, true_and, exists_and_left]

/-- A row is added exactly if every constraint of its table is met. -/
theorem addRow_eq_ok_iff {db next : Database} {table : Table} {row : Row} :
    db.addRow table row = .ok next ↔
      missing? table row = none ∧ db.repeated? table row = none ∧
        (db.enforcesLinks = true → db.linked table row = true) ∧
        next = db.withRow table row := by
  unfold addRow withRow
  cases hmissing : missing? table row with
  | some column => simp
  | none =>
      cases hrepeated : db.repeated? table row with
      | some column => simp
      | none =>
          cases henforces : db.enforcesLinks <;> cases hlinked : db.linked table row <;>
            simp [eq_comm]

theorem key_ne_of_repeated? {db : Database} {table : Table} {row : Row}
    (hrepeated : db.repeated? table row = none) : ∀ other ∈ db.rows table, other.key ≠ row.key := by
  unfold repeated? at hrepeated
  split at hrepeated
  next => cases hrepeated
  next hnone => simpa using hnone

theorem default_isHeld {table : Table} {column : Column} (hcolumn : column ∈ table.columns) :
    column.default.IsHeld column.affinity := by
  have hnull : ∀ affinity, Cell.IsHeld affinity .null := by
    intro affinity
    cases affinity <;> exact ⟨rfl, by rintro n ⟨⟩⟩
  have hzero : Cell.IsHeld .integer (.integer 0) := Cell.isHeld_settle (Or.inl ⟨0, rfl, by decide⟩)
  cases table with
  | works =>
      simp only [Table.columns, List.mem_cons, List.not_mem_nil, or_false] at hcolumn
      rcases hcolumn with rfl | rfl | rfl | rfl | rfl | rfl
      case inr.inr.inr.inl => exact hzero
      all_goals exact hnull _
  | names facet =>
      rw [List.mem_singleton.mp hcolumn]
      exact hnull _
  | links facet =>
      simp only [Table.columns, List.mem_cons, List.not_mem_nil, or_false] at hcolumn
      rcases hcolumn with rfl | rfl <;> exact hnull _

theorem length_newCells (table : Table) (given : List (Slot × Cell)) :
    (newCells table given).length = table.columns.length := by
  rw [newCells, List.length_map, List.length_zipIdx]

/-- The cell of a new row is what a column makes of the value that it is given. -/
theorem cell_newCells {table : Table} {given : List (Slot × Cell)} {key : Int} {index : Nat}
    {column : Column} (hcolumn : table.columns[index]? = some column) :
    (⟨key, newCells table given⟩ : Row).cell (.column index) =
      ((given.lookup (.column index)).map (Cell.stored column.affinity)).getD column.default := by
  cases hvalue : given.lookup (.column index) <;>
    simp [Row.cell, newCells, List.getElem?_map, List.getElem?_zipIdx, hcolumn, hvalue]

/-- The cells of a new row are held by their columns. -/
theorem newCells_isHeld {table : Table} {given : List (Slot × Cell)} {key : Int}
    (hgiven : ∀ slot n, (slot, .integer n) ∈ given → Word.isSigned n = true)
    {index : Nat} {column : Column} (hcolumn : table.columns[index]? = some column) :
    ((⟨key, newCells table given⟩ : Row).cell (.column index)).IsHeld column.affinity := by
  rw [cell_newCells hcolumn]
  cases hvalue : given.lookup (.column index) with
  | some value =>
      apply Cell.isHeld_stored column.affinity
      rintro n rfl
      exact hgiven _ n (mem_of_lookup hvalue)
  | none => exact default_isHeld (List.mem_of_getElem? hcolumn)

/-! ## Every reachable database -/

/-- A new row on a table keeps the guarantees of all tables. -/
theorem Sound.withRow {db : Database} (hsound : db.Sound) {table : Table} {row : Row}
    (hkey : Word.isSigned row.key = true) (hnew : ∀ other ∈ db.rows table, other.key ≠ row.key)
    (hheld : ∀ (index : Nat) (column : Column), table.columns[index]? = some column →
      (row.cell (.column index)).IsHeld column.affinity) :
    (db.withRow table row).Sound := by
  refine ⟨?_, ?_, ?_⟩
  · intro other
    by_cases hother : other = table
    · subst hother
      rw [Database.withRow, rows_withRows_self]
      exact pairwise_place (hsound.ascending other) hnew
    · rw [rows_withRow_of_ne row hother]
      exact hsound.ascending other
  · intro other found hfound
    rcases mem_rows_withRow.mp hfound with ⟨rfl, rfl⟩ | hfound
    · exact hkey
    · exact hsound.keys_isSigned other found hfound
  · intro other found hfound
    rcases mem_rows_withRow.mp hfound with ⟨rfl, rfl⟩ | hfound
    · exact hheld
    · exact hsound.held other found hfound

/-- What a database holds after insertions is sound. -/
theorem Reachable.sound {db : Database} (hdb : db.Reachable) : db.Sound := by
  induction hdb with
  | empty enforcesLinks =>
      refine ⟨fun table => List.Pairwise.nil, ?_, ?_⟩
      all_goals
        intro table row hrow
        cases hrow
  | insert hdb hvalues hinsert ih =>
      obtain ⟨table, given, key, -, hassign, hkey, hadd⟩ := insert_eq_ok_iff.mp hinsert
      obtain ⟨-, hrepeated, -, rfl⟩ := addRow_eq_ok_iff.mp hadd
      -- The new row has a number of its own, and each of its cells is converted or a default.
      have hgiven : ∀ slot n, (slot, .integer n) ∈ given → Word.isSigned n = true :=
        fun slot n hn => hvalues n (mem_of_assign hassign hn)
      refine ih.withRow ?_ (key_ne_of_repeated? hrepeated) fun index column hcolumn =>
        newCells_isHeld hgiven hcolumn
      exact keyOf_isSigned (ih.keys_isSigned table)
        (fun n hasked => hgiven .key n (mem_of_askedKey hasked)) hkey

/-! ## Rows by their numbers -/

variable {db : Database}

theorem Sound.eq_of_key {table : Table} (hsound : db.Sound) {first second : Row}
    (hfirst : first ∈ db.rows table) (hsecond : second ∈ db.rows table)
    (hkey : first.key = second.key) : first = second := by
  have hlt := List.pairwise_iff_getElem.mp (hsound.ascending table)
  by_contra hne
  obtain ⟨i, hi, rfl⟩ := List.getElem_of_mem hfirst
  obtain ⟨j, hj, rfl⟩ := List.getElem_of_mem hsecond
  rcases Nat.lt_trichotomy i j with hij | rfl | hij
  · exact absurd hkey (ne_of_lt (hlt i j hi hj hij))
  · exact hne rfl
  · exact absurd hkey.symm (ne_of_lt (hlt j i hj hi hij))

theorem Sound.nodup_rows (hsound : db.Sound) (table : Table) : (db.rows table).Nodup :=
  (hsound.ascending table).imp fun hlt heq => absurd (congrArg Row.key heq) (ne_of_lt hlt)

/-- Different rows of a table have different numbers. -/
theorem Sound.nodup_keys {table : Table} (hsound : db.Sound) {found : List Row} (hnodup : found.Nodup)
    (hfound : ∀ row ∈ found, row ∈ db.rows table) : (found.map Row.key).Nodup := by
  refine List.Nodup.map_on ?_ hnodup
  intro first hfirst second hsecond hkey
  exact hsound.eq_of_key (hfound first hfirst) (hfound second hsecond) hkey

theorem Sound.find?_key {table : Table} (hsound : db.Sound) {row : Row} (hrow : row ∈ db.rows table) :
    ((db.rows table).find? fun other => other.key == row.key) = some row := by
  cases hfind : (db.rows table).find? fun other => other.key == row.key with
  | none =>
      have hnone := List.find?_eq_none.mp hfind row hrow
      simp at hnone
  | some found =>
      have hkey : found.key = row.key := by simpa using List.find?_some hfind
      rw [hsound.eq_of_key (List.mem_of_find?_eq_some hfind) hrow hkey]

/-! ## Databases that are listed -/

/-- Whether a column of the affinity holds the cell. -/
def holds (affinity : Affinity) (cell : Cell) : Bool :=
  Cell.stored affinity cell == cell &&
    match cell with
    | .integer n => Word.isSigned n
    | _ => true

theorem isHeld_of_holds {affinity : Affinity} {cell : Cell} (hholds : holds affinity cell = true) :
    cell.IsHeld affinity := by
  obtain ⟨hstored, hword⟩ := Bool.and_eq_true_iff.mp hholds
  refine ⟨beq_iff_eq.mp hstored, ?_⟩
  rintro n rfl
  exact hword

/-- Whether the rows of a table are as a sound database has them. -/
def areSound (table : Table) (rows : List Row) : Bool :=
  decide (rows.Pairwise fun a b => a.key < b.key) &&
    rows.all fun row => Word.isSigned row.key &&
      table.columns.zipIdx.all fun (column, index) => holds column.affinity (row.cell (.column index))

/-- What holds of the rows that a database lists, and of none, holds of every table. -/
theorem all_rows {test : Table → List Row → Bool} (hnone : ∀ table, test table [] = true)
    (hrows : (db.contents.all fun entry => test entry.1 entry.2) = true) (table : Table) :
    test table (db.rows table) = true := by
  cases hlookup : db.contents.lookup table with
  | none =>
      rw [rows, hlookup]
      exact hnone table
  | some listed =>
      obtain ⟨before, after, hsplit, -⟩ := List.lookup_eq_some_iff.mp hlookup
      rw [rows, hlookup]
      exact List.all_eq_true.mp hrows (table, listed) (by simp [hsplit])

/-- A database is sound if the rows that it lists are. -/
theorem sound_of_areSound (hrows : (db.contents.all fun entry => areSound entry.1 entry.2) = true) :
    db.Sound := by
  have htable := all_rows (fun _ => rfl) hrows
  refine ⟨?_, ?_, ?_⟩
  all_goals
    intro table
    obtain ⟨hascending, hall⟩ := Bool.and_eq_true_iff.mp (htable table)
  · exact of_decide_eq_true hascending
  · intro row hrow
    exact (Bool.and_eq_true_iff.mp (List.all_eq_true.mp hall row hrow)).1
  · intro row hrow index column hcolumn
    have hcells := (Bool.and_eq_true_iff.mp (List.all_eq_true.mp hall row hrow)).2
    have hmem : (column, index) ∈ table.columns.zipIdx := List.mem_zipIdx_iff_getElem?.mpr hcolumn
    exact isHeld_of_holds (List.all_eq_true.mp hcells (column, index) hmem)

theorem sample_sound : sample.Sound :=
  sound_of_areSound (by decide +kernel)

end Database

end ComicCatalog
