import ComicCatalog.Proofs.Catalog.Selects
import ComicCatalog.Proofs.Lookup.Outcome
import ComicCatalog.Proofs.Store.Numerals
import ComicCatalog.Proofs.Store.Soundness
import ComicCatalog.Proofs.Work.Candidates

/-! # What annotation attaches

The names of tags and artists are looked up for many works at once, in pieces, and
sorted out afterwards. A record is shown with the names that its links point at, in the
order of the links, once for each piece that its number stands in. Different works stand
in one piece each, so what a work is shown with depends on its own links only.
-/

namespace ComicCatalog

open Lookup

/-! ## The names of a work -/

namespace Database

/-- The name that a link points at, if it is a text. -/
def shownName? (db : Database) (facet : Facet) (link : Row) : Option String :=
  match link.cell (.column 1) with
  | .integer key =>
      ((db.rows (.names facet)).find? fun name => name.key == key).bind fun name =>
        (name.cell (.column 0)).toJson.text?
  | _ => none

/-- The names that the links of the work with a number point at, in link order. -/
def linkedNames (db : Database) (facet : Facet) (n : Int) : List String :=
  (db.rows (.links facet)).filterMap fun link =>
    if link.cell (.column 0) = .integer n then db.shownName? facet link else none

/-- The names that a work is shown with. -/
def shownNames (db : Database) (facet : Facet) (work : Row) : List String :=
  db.linkedNames facet work.key

/-- The work as the catalog shows it. -/
def entry (db : Database) (work : Row) : Entry :=
  Entry.ofRecord (record .works Table.works.slots work) (db.shownNames .tag work)
    (db.shownNames .artist work)

theorem inColumn?_id_works (work : Row) :
    Ident.inColumn? (record .works Table.works.slots work) "id" = some work.ident := by
  have hlabels : (Table.works.slots.map Table.works.label).Nodup := by decide
  have hslot : Slot.key ∈ Table.works.slots := by decide
  exact inColumn?_record hlabels work hslot

/-- The identifier that an entry shows is that of its work. -/
theorem id?_entry (db : Database) (work : Row) : (db.entry work).id? = some work.ident := by
  have hident := inColumn?_id_works work
  unfold Ident.inColumn? at hident
  rw [Entry.id?, Ident.inColumn?, entry, Entry.ofRecord,
    Record.get?_erase_of_ne _ (by decide : "id" ≠ "artist"),
    Record.get?_erase_of_ne _ (by decide : "id" ≠ "tags"), hident]

end Database

theorem key_eq_of_ident {first second : Row} (hident : first.ident = second.ident) :
    first.key = second.key :=
  Int.repr_inj.mp (congrArg Ident.text hident)

/-- Rows of different numbers have different identifiers. -/
theorem nodup_idents {rows : List Row} (hnodup : (rows.map Row.key).Nodup) :
    ((rows.map Row.ident).map Ident.text).Nodup := by
  rw [List.map_map]
  refine List.Nodup.map_on ?_ hnodup.of_map
  intro first hfirst second hsecond htext
  exact List.inj_on_of_nodup_map hnodup hfirst hsecond (key_eq_of_ident (congrArg Ident.mk htext))

variable {db : Database}

/-- Works of different numbers are shown with different identifiers. -/
theorem nodup_shown_ids {works : List Row} (hnodup : (works.map Row.key).Nodup) :
    ((works.map db.entry).map Entry.id?).Nodup := by
  have hshown : Entry.id? ∘ db.entry = some ∘ Row.ident := funext db.id?_entry
  rw [List.map_map, hshown, ← List.map_map]
  exact (nodup_idents hnodup).of_map.map (Option.some_injective _)

/-- The rows whose numbers are among the texts, one piece of the texts after the other. -/
def Database.numbered (db : Database) (table : Table) (texts : List String) : List Row :=
  rowsAmong (db.rows table) (fun text row => Cell.rowNumber? text == some row.key) texts

theorem mem_numbered {table : Table} {texts : List String} {row : Row} :
    row ∈ db.numbered table texts ↔
      row ∈ db.rows table ∧ ∃ text ∈ texts, Cell.rowNumber? text = some row.key := by
  simp only [Database.numbered, mem_rowsAmong, beq_iff_eq]

/-- A cell that is shown as the number of a row is that number. -/
theorem Cell.IsHeld.ofJson?_eq_ident {cell : Cell} (hheld : cell.IsHeld .integer) {row : Row} :
    Ident.ofJson? cell.toJson = some row.ident ↔ cell = .integer row.key :=
  hheld.ofJson?_eq_toString

/-! ## Names by their identifiers -/

namespace Facet

variable (facet : Facet)

/-- The identifier and the name that a row of names shows. -/
theorem nameOfRow?_record (row : Row) :
    nameOfRow? (Database.record (.names facet) [.key, .column 0] row) =
      (row.cell (.column 0)).toJson.text?.map fun name => (row.ident, name) := by
  have hlabels : ([Slot.key, .column 0].map (Table.names facet).label).Nodup := by
    simp [Table.label, Table.keyName, Table.keyed, Table.columns]
  have hident : Ident.inColumn? (Database.record (.names facet) [.key, .column 0] row) "id" =
      some row.ident :=
    Database.inColumn?_record hlabels row List.mem_cons_self
  have hname : (Database.record (.names facet) [.key, .column 0] row).get? "name" =
      some (row.cell (.column 0)).toJson :=
    Database.get?_record hlabels row (List.mem_cons_of_mem _ List.mem_cons_self)
  rw [nameOfRow?, hident, hname, Option.bind_some]
  cases (row.cell (.column 0)).toJson.text? <;> rfl

/-- The names with the given numbers, as they are shown. -/
def shownNumbered (db : Database) (targets : List String) : List Record :=
  (db.numbered (.names facet) targets).map (Database.record (.names facet) [.key, .column 0])

/-- The name that is looked up for a link is the one that it points at. -/
theorem lookup_names (hsound : db.Sound) {targets : List String} {link : Row} {target : Ident}
    (hlink : link ∈ db.rows (.links facet))
    (htarget : Ident.ofJson? (link.cell (.column 1)).toJson = some target)
    (hmem : target.text ∈ targets) :
    ((facet.shownNumbered db targets).filterMap nameOfRow?).reverse.lookup target =
      db.shownName? facet link := by
  have hheld : (link.cell (.column 1)).IsHeld .integer := hsound.held _ link hlink 1 _ rfl
  -- An entry for the target comes from the row that the link's cell is the number of.
  have hentry : ∀ name,
      (target, name) ∈ ((facet.shownNumbered db targets).filterMap nameOfRow?).reverse ↔
        db.shownName? facet link = some name := by
    intro name
    simp only [shownNumbered, List.mem_reverse, List.mem_filterMap, List.mem_map,
      exists_exists_and_eq_and, nameOfRow?_record, Option.map_eq_some_iff, Prod.mk.injEq]
    constructor
    · rintro ⟨row, hnumbered, shown, hshown, hident, rfl⟩
      have hrow := (mem_numbered.mp hnumbered).1
      have hcell := hheld.ofJson?_eq_ident.mp (hident ▸ htarget)
      simp only [Database.shownName?, hcell, hsound.find?_key hrow, Option.bind_some, hshown]
    · intro hshown
      unfold Database.shownName? at hshown
      split at hshown
      next key hcell =>
        obtain ⟨row, hfind, hname⟩ := Option.bind_eq_some_iff.mp hshown
        have hrow := List.mem_of_find?_eq_some hfind
        have hkey : row.key = key := by simpa using List.find?_some hfind
        have hsigned := hsound.keys_isSigned _ row hrow
        rw [← hkey] at hcell
        have hident := htarget.symm.trans (hheld.ofJson?_eq_ident.mpr hcell)
        cases hident
        exact ⟨row, mem_numbered.mpr ⟨hrow, _, hmem, Cell.rowNumber?_toString hsigned⟩,
          name, hname, rfl, rfl⟩
      next => cases hshown
  generalize ((facet.shownNumbered db targets).filterMap nameOfRow?).reverse = entries at hentry
  cases hlookup : entries.lookup target with
  | none =>
      cases hshown : db.shownName? facet link with
      | none => rfl
      | some name =>
          have hmem := (hentry name).mpr hshown
          rw [List.lookup_eq_none_iff] at hlookup
          have hne := hlookup _ hmem
          simp at hne
  | some name =>
      obtain ⟨before, after, hsplit, -⟩ := List.lookup_eq_some_iff.mp hlookup
      exact ((hentry name).mp (by simp [hsplit])).symm

/-- The names that an index of links has for a number are those that its links point at. -/
theorem namesOf_indexLinks (hsound : db.Sound) {links : List Row} {targets : List String}
    (hlinks : ∀ link ∈ links, link ∈ db.rows (.links facet))
    (htargets : ∀ link ∈ links, ∀ target, Ident.ofJson? (link.cell (.column 1)).toJson = some target →
      target.text ∈ targets) (n : Int) :
    (facet.indexLinks (links.map (Database.record (.links facet) [.column 0, .column 1]))
      (facet.shownNumbered db targets)).namesOf ⟨toString n⟩ =
      links.filterMap fun link =>
        if link.cell (.column 0) = .integer n then db.shownName? facet link else none := by
  have hlabels : ([Slot.column 0, .column 1].map (Table.links facet).label).Nodup := by
    simpa [Table.label, Table.columns] using facet.linkColumn_ne.symm
  have hends : ∀ link : Row,
      Ident.inColumn? (Database.record (.links facet) [.column 0, .column 1] link) "manga_id" =
          Ident.ofJson? (link.cell (.column 0)).toJson ∧
        Ident.inColumn? (Database.record (.links facet) [.column 0, .column 1] link)
            facet.linkColumn = Ident.ofJson? (link.cell (.column 1)).toJson := fun link =>
    ⟨Database.inColumn?_record hlabels link List.mem_cons_self,
      Database.inColumn?_record hlabels link (List.mem_cons_of_mem _ List.mem_cons_self)⟩
  have hlookup : ∀ link ∈ links, ∀ target,
      Ident.ofJson? (link.cell (.column 1)).toJson = some target →
        ((facet.shownNumbered db targets).filterMap nameOfRow?).reverse.lookup target =
          db.shownName? facet link :=
    fun link hlink target htarget =>
      facet.lookup_names hsound (hlinks link hlink) htarget (htargets link hlink target htarget)
  rw [indexLinks]
  generalize (List.filterMap nameOfRow? _).reverse = entries at hlookup ⊢
  simp only [NameIndex.namesOf, List.filterMap_map, List.filter_filterMap, List.map_filterMap]
  apply List.filterMap_congr
  intro link hlink
  have hheld : (link.cell (.column 0)).IsHeld .integer := hsound.held _ link (hlinks link hlink) 0 _ rfl
  simp only [Function.comp_apply, hends]
  cases hid : Ident.ofJson? (link.cell (.column 0)).toJson with
  | none =>
      -- A link that shows no work is indexed under none.
      have hne : link.cell (.column 0) ≠ .integer n := by
        intro hcell
        rw [hcell] at hid
        cases hid
      rw [if_neg hne]
      rfl
  | some id =>
      have hcell : id = ⟨toString n⟩ ↔ link.cell (.column 0) = .integer n := by
        rw [← hheld.ofJson?_eq_toString, hid, Option.some.injEq]
      cases htarget : Ident.ofJson? (link.cell (.column 1)).toJson with
      | none =>
          have hshown : db.shownName? facet link = none := by
            unfold Database.shownName?
            split
            next key hkey =>
              rw [hkey] at htarget
              cases htarget
            next => rfl
          rw [hshown, ite_self]
          rfl
      | some target =>
          show Option.map Prod.snd (Option.filter _
            ((entries.lookup target).bind fun name => some (id, name))) = _
          rw [hlookup link hlink target htarget]
          cases db.shownName? facet link with
          | none => simp
          | some name => simp [Option.filter, ← hcell, apply_ite]

/-- The names of a facet that are looked up for numbers are those that their links point
at, once for each piece that a number stands in. -/
theorem resultOn_namesByWork (hsound : db.Sound) {ids : List Int} (hfits : ∀ n ∈ ids, Word.Fits n) :
    ∃ index, (facet.namesByWork (ids.map toString)).resultOn db = .ok index ∧
      ∀ n, index.namesOf ⟨toString n⟩ =
        (List.replicate (piecesWith (ids.map toString) (toString n)) (db.linkedNames facet n)).flatten := by
  generalize hvalues : ids.map toString = values
  have hlinks := resultOn_rowsAmong values fun piece =>
    @Database.answer_linksByWork db facet _ piece
  generalize hfound : rowsAmong (db.rows (.links facet)) _ values = links at hlinks
  generalize htargets : (Candidates.ofList (identsIn facet.linkColumn (links.map
    (Database.record (.links facet) [.column 0, .column 1])))).ids.map Ident.text = targets
  have hnames := resultOn_rowsAmong targets fun piece =>
    @Database.answer_names db facet _ piece
  have hindex : (facet.namesByWork values).resultOn db = .ok (facet.indexLinks
      (links.map (Database.record (.links facet) [.column 0, .column 1]))
      (facet.shownNumbered db targets)) := by
    rw [namesByWork, resultOn_bind_of_ok hlinks]
    simp only [htargets]
    rw [resultOn_bind_of_ok hnames]
    rfl
  refine ⟨_, hindex, ?_⟩
  intro n
  rw [facet.namesOf_indexLinks hsound, ← hfound]
  · apply filterMap_rowsAmong
    -- A link that is taken for the number is found under the digits of the number only.
    intro link hlink htaken other hother
    have hcell : link.cell (.column 0) = .integer n := by
      by_contra hne
      rw [if_neg hne] at htaken
      cases htaken
    have hheld : (link.cell (.column 0)).IsHeld .integer := hsound.held _ link hlink 0 _ rfl
    rw [← hvalues] at hother
    obtain ⟨m, hm, rfl⟩ := List.mem_map.mp hother
    rw [hcell, Cell.equals_operand_toString (hheld.isSigned n hcell) (hfits m hm)]
    exact Int.repr_inj.symm
  · intro link hlink
    rw [← hfound] at hlink
    exact (mem_rowsAmong.mp hlink).1
  · intro link hlink target htarget
    have hlabels : ([Slot.column 0, .column 1].map (Table.links facet).label).Nodup := by
      simpa [Table.label, Table.columns] using facet.linkColumn_ne.symm
    have hidents : identsIn facet.linkColumn (links.map (Database.record (.links facet)
        [.column 0, .column 1])) = links.filterMap fun link =>
          Ident.ofJson? (link.cell (.column 1)).toJson :=
      identsIn_records hlabels (List.mem_cons_of_mem _ List.mem_cons_self) links
    rw [← htargets, hidents]
    apply List.mem_map_of_mem
    rw [Candidates.mem_ofList]
    exact List.mem_filterMap.mpr ⟨link, hlink, htarget⟩

end Facet

/-! ## Records that are about whole numbers -/

/-- The whole number that a record is about. -/
def Record.wholeId? (row : Record) : Option Int :=
  match row.get? "id" with
  | some (.number (.whole n)) => some n
  | _ => none

/-- The record is about a whole number that JSON holds. -/
def Record.IsNumbered (row : Record) : Prop :=
  ∃ n, row.get? "id" = some (.ofInt n) ∧ Word.Fits n

/-- The whole numbers that records are about, as they are looked up. -/
def idTexts (rows : List Record) : List String :=
  (rows.filterMap Record.wholeId?).map toString

namespace Database

/-- The names that a record gets among others: those of its links, once for each piece of
the numbers that its own stands in. -/
def namesAmong (db : Database) (facet : Facet) (rows : List Record) (row : Record) : List String :=
  match row.wholeId? with
  | some n => (List.replicate (piecesWith (idTexts rows) (toString n)) (db.linkedNames facet n)).flatten
  | none => []

/-- The entry of a record that is annotated among others. -/
def entryAmong (db : Database) (rows : List Record) (row : Record) : Entry :=
  Entry.ofRecord row (db.namesAmong .tag rows row) (db.namesAmong .artist rows row)

end Database

theorem Record.wholeId?_of_get? {row : Record} {n : Int} (hid : row.get? "id" = some (.ofInt n)) :
    row.wholeId? = some n := by
  rw [wholeId?, hid]
  rfl

theorem identsIn_id_of_numbered {rows : List Record} (hrows : ∀ row ∈ rows, row.IsNumbered) :
    (identsIn "id" rows).map Ident.text = idTexts rows := by
  rw [identsIn, idTexts, List.map_filterMap, List.map_filterMap]
  apply List.filterMap_congr
  intro row hrow
  obtain ⟨n, hid, -⟩ := hrows row hrow
  rw [Ident.inColumn?, Record.wholeId?_of_get? hid, hid]
  rfl

/-- Annotation shows each record as the entry that it has among the others, in their order. -/
theorem resultOn_annotate_of_numbered (hsound : db.Sound) {rows : List Record}
    (hrows : ∀ row ∈ rows, row.IsNumbered) :
    (annotate rows).resultOn db = .ok (rows.map (db.entryAmong rows)) := by
  have hfits : ∀ n ∈ rows.filterMap Record.wholeId?, Word.Fits n := by
    intro n hn
    obtain ⟨row, hrow, hwhole⟩ := List.mem_filterMap.mp hn
    obtain ⟨m, hid, hm⟩ := hrows row hrow
    rw [Record.wholeId?_of_get? hid] at hwhole
    rwa [← Option.some.inj hwhole]
  unfold annotate
  split
  next hempty =>
    have hnil : rows = [] := by simpa using hempty
    rw [hnil]
    rfl
  next =>
    obtain ⟨tags, htags, htagNames⟩ := Facet.tag.resultOn_namesByWork hsound hfits
    obtain ⟨artists, hartists, hartistNames⟩ := Facet.artist.resultOn_namesByWork hsound hfits
    simp only [identsIn_id_of_numbered hrows]
    rw [idTexts, resultOn_bind_of_ok htags, resultOn_bind_of_ok hartists, resultOn_pure]
    refine congrArg Except.ok (List.map_congr_left fun row hrow => ?_)
    obtain ⟨n, hid, -⟩ := hrows row hrow
    have hident : Ident.inColumn? row "id" = some ⟨toString n⟩ := by
      rw [Ident.inColumn?, hid]
      rfl
    simp only [NameIndex.namesOfRow, hident, htagNames, hartistNames, Database.entryAmong,
      Database.namesAmong, Record.wholeId?_of_get? hid, idTexts]

/-! ## Stored works -/

theorem get?_id_works (work : Row) :
    (Database.record .works Table.works.slots work).get? "id" = some (.ofInt work.key) := by
  have hlabels : (Table.works.slots.map Table.works.label).Nodup := by decide
  have hslot : Slot.key ∈ Table.works.slots := by decide
  exact Database.get?_record hlabels work hslot

/-- Annotation shows each of the rows as its own entry, in their order. -/
theorem resultOn_annotate (hsound : db.Sound) {works : List Row}
    (hwords : ∀ work ∈ works, Word.isSigned work.key = true) (hnodup : (works.map Row.key).Nodup) :
    (annotate (works.map (Database.record .works Table.works.slots))).resultOn db =
      .ok (works.map db.entry) := by
  have hnumbered : ∀ row ∈ works.map (Database.record .works Table.works.slots), row.IsNumbered := by
    intro row hrow
    obtain ⟨work, hwork, rfl⟩ := List.mem_map.mp hrow
    exact ⟨work.key, get?_id_works work, Word.fits_of_isSigned (hwords work hwork)⟩
  have htexts : idTexts (works.map (Database.record .works Table.works.slots)) =
      (works.map Row.ident).map Ident.text := by
    rw [← identsIn_id_of_numbered hnumbered, identsIn_id_works]
  rw [resultOn_annotate_of_numbered hsound hnumbered, List.map_map]
  refine congrArg Except.ok (List.map_congr_left fun work hwork => ?_)
  have hpieces : piecesWith (idTexts (works.map (Database.record .works Table.works.slots)))
      (toString work.key) = 1 := by
    rw [htexts]
    exact piecesWith_eq_one (nodup_idents hnodup)
      (List.mem_map_of_mem (List.mem_map_of_mem hwork))
  have hnames : ∀ facet, db.namesAmong facet (works.map (Database.record .works Table.works.slots))
      (Database.record .works Table.works.slots work) = db.shownNames facet work := by
    intro facet
    simp only [Database.namesAmong, Record.wholeId?_of_get? (get?_id_works work), hpieces,
      List.replicate_one, List.flatten_singleton]
    rfl
  rw [Function.comp_apply, Database.entryAmong, hnames, hnames, Database.entry]

end ComicCatalog
