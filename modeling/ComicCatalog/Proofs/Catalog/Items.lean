import ComicCatalog.Catalog.Search
import ComicCatalog.Lookup.Source
import ComicCatalog.Proofs.Catalog.Listing
import ComicCatalog.Proofs.Json.ReadBack
import ComicCatalog.Proofs.Lookup.Courses

/-! # What is sent of an entry

Whoever answers the selects, an entry is made from a row of works that was answered, and
what is sent of it has all columns of that row as they are, save for two names: under each
of these stands one list of names, whatever the row had there. It is read back wherever the
row is, and the rows of a sound database are.
-/

namespace ComicCatalog

open Lookup

variable {σ : Type}

/-- The names under which an entry has its lists of names. -/
def Entry.listNames : List String :=
  ["tags", "artist"]

/-- The columns of a row other than those that the lists of an entry take the place of. -/
def Record.ownColumns (record : Record) : Record :=
  record.filter fun column => column.1 ∉ Entry.listNames

/-- What is sent of the entry has every column of the row, in order, and one list of names
under each of the two names. -/
def Entry.ShowsRow (entry : Entry) (row : Record) : Prop :=
  ∃ fields : Record, entry.toJson = .object fields ∧ fields.ownColumns = row.ownColumns ∧
    fields.filter (fun field => field.1 = "tags") = [("tags", Json.ofTexts entry.tags)] ∧
    fields.filter (fun field => field.1 = "artist") = [("artist", Json.ofTexts entry.artists)]

/-- Erasing the two names leaves all other columns. -/
theorem Record.ownColumns_erase (row : Record) :
    ((row.erase "tags").erase "artist").ownColumns = row.ownColumns := by
  simp only [ownColumns, erase, List.filter_filter]
  apply List.filter_congr
  intro column _
  by_cases htags : column.1 = "tags" <;> by_cases hartist : column.1 = "artist" <;>
    simp [Entry.listNames, htags, hartist]

theorem Record.filter_erase {row : Record} {name : String} (hname : name ∈ Entry.listNames) :
    ((row.erase "tags").erase "artist").filter (fun column => column.1 = name) = [] := by
  rw [List.filter_eq_nil_iff]
  intro column hcolumn
  simp only [erase, List.mem_filter, bne_iff_ne] at hcolumn
  simp only [Entry.listNames, List.mem_cons, List.not_mem_nil, or_false] at hname
  rcases hname with rfl | rfl
  · simpa using hcolumn.1.2
  · simpa using hcolumn.2

theorem Entry.showsRow_ofRecord (row : Record) (tags artists : List String) :
    (Entry.ofRecord row tags artists).ShowsRow row := by
  have hlists : Record.ownColumns [("tags", Json.ofTexts tags), ("artist", Json.ofTexts artists)] =
      [] := by simp [Record.ownColumns, listNames]
  have hnone : ∀ name ∈ listNames,
      (Entry.ofRecord row tags artists).fields.filter (fun field => field.1 = name) = [] :=
    fun _ hname => Record.filter_erase hname
  refine ⟨_, rfl, ?_, ?_, ?_⟩
  · rw [Record.ownColumns, List.filter_append]
    exact (congrArg₂ (· ++ ·) row.ownColumns_erase hlists).trans (List.append_nil _)
  · rw [List.filter_append, hnone "tags" (by simp [listNames])]
    simp
  · rw [List.filter_append, hnone "artist" (by simp [listNames])]
    simp

/-- A row of works that was answered in full. -/
def Answered (exchanges : List Exchange) (row : Record) : Prop :=
  ∃ select rows, (select, Except.ok rows) ∈ exchanges ∧ select.table = "manga" ∧
    select.columns = none ∧ row ∈ rows

theorem Answered.append_left {first : List Exchange} {row : Record} (hrow : Answered first row)
    (second : List Exchange) : Answered (first ++ second) row := by
  obtain ⟨select, rows, hexchange, hselect⟩ := hrow
  exact ⟨select, rows, List.mem_append_left second hexchange, hselect⟩

theorem Answered.append_right {second : List Exchange} {row : Record} (hrow : Answered second row)
    (first : List Exchange) : Answered (first ++ second) row := by
  obtain ⟨select, rows, hexchange, hselect⟩ := hrow
  exact ⟨select, rows, List.mem_append_right first hexchange, hselect⟩

/-- Rows that are looked up among many values have been answered. -/
theorem answered_among {column : String} {values : List String} {exchanges : List Exchange}
    {counted : Tally} {rows : List Record}
    (hcourse : Course (among (Select.all "manga") column values) exchanges counted (.ok rows)) :
    ∀ row ∈ rows, Answered exchanges row := by
  unfold among at hcourse
  generalize pieces values = cut at hcourse
  induction cut generalizing exchanges counted rows with
  | nil =>
      obtain ⟨-, -, hrows⟩ := hcourse.of_pure
      cases hrows
      exact fun row hrow => absurd hrow List.not_mem_nil
  | cons piece rest ih =>
      obtain ⟨found, first, second, before, after, hfetch, hrest, rfl, rfl⟩ := hcourse.of_bind_ok
      obtain ⟨more, third, fourth, _, _, hmore, hpure, rfl, rfl⟩ := hrest.of_bind_ok
      obtain ⟨rfl, -⟩ := hfetch.of_fetch
      obtain ⟨rfl, -, hrows⟩ := hpure.of_pure
      cases hrows
      intro row hrow
      rcases List.mem_append.mp hrow with hrow | hrow
      · exact ⟨_, found, List.mem_append_left _ List.mem_cons_self, rfl, rfl, hrow⟩
      · exact ((ih hmore row hrow).append_left []).append_right _

/-- Annotation makes an entry of each row. -/
theorem showsRow_annotate {rows : List Record} {exchanges : List Exchange} {counted : Tally}
    {entries : List Entry} (hcourse : Course (annotate rows) exchanges counted (.ok entries)) :
    List.Forall₂ (fun entry row => entry.ShowsRow row) entries rows := by
  unfold annotate at hcourse
  split at hcourse
  next hempty =>
    obtain ⟨-, -, hentries⟩ := hcourse.of_pure
    cases hentries
    rw [List.isEmpty_iff.mp hempty]
    exact .nil
  next =>
    obtain ⟨tags, first, second, _, _, -, hrest, rfl, rfl⟩ := hcourse.of_bind_ok
    obtain ⟨artists, third, fourth, _, _, -, hpure, rfl, rfl⟩ := hrest.of_bind_ok
    obtain ⟨-, -, hentries⟩ := hpure.of_pure
    cases hentries
    rw [List.forall₂_map_left_iff, List.forall₂_same]
    exact fun row _ => Entry.showsRow_ofRecord row _ _

/-- Each of the entries is made from a row that was answered. -/
def MadeFrom (exchanges : List Exchange) (entries : List Entry) : Prop :=
  ∀ entry ∈ entries, ∃ row, Answered exchanges row ∧ entry.ShowsRow row

theorem MadeFrom.nil (exchanges : List Exchange) : MadeFrom exchanges [] :=
  fun _ hentry => absurd hentry List.not_mem_nil

theorem MadeFrom.append_right {second : List Exchange} {entries : List Entry}
    (hmade : MadeFrom second entries) (first : List Exchange) : MadeFrom (first ++ second) entries := by
  intro entry hentry
  obtain ⟨row, hrow, hshows⟩ := hmade entry hentry
  exact ⟨row, hrow.append_right first, hshows⟩

theorem madeFrom_of_annotate {rows : List Record} {first second : List Exchange} {counted : Tally}
    {entries : List Entry} (hrows : ∀ row ∈ rows, Answered first row)
    (hcourse : Course (annotate rows) second counted (.ok entries)) :
    MadeFrom (first ++ second) entries := by
  intro entry hentry
  obtain ⟨i, hi, rfl⟩ := List.mem_iff_getElem.mp hentry
  have hshows := showsRow_annotate hcourse
  have hi' : i < rows.length := hshows.length_eq ▸ hi
  exact ⟨rows[i], (hrows _ (List.getElem_mem hi')).append_left second, hshows.get hi hi'⟩

theorem ListingRequest.madeFrom (request : ListingRequest) (pageSize : Nat)
    (responder : Responder σ) (state : σ) {entries : List Entry}
    (hresult : ((request.entries pageSize).run responder state).result = .ok entries) :
    MadeFrom (responder.exchanges ((request.entries pageSize).run responder state).asked state)
      entries := by
  have hcourse := course_run (request.entries pageSize) responder state
  rw [hresult] at hcourse
  generalize responder.exchanges _ state = exchanges at hcourse ⊢
  obtain ⟨rows, first, second, _, _, hfetch, hrest, rfl, -⟩ := hcourse.of_mapError_ok.of_bind_ok
  obtain ⟨found, third, fourth, _, _, hannotate, hpure, rfl, -⟩ := hrest.of_bind_ok
  obtain ⟨rfl, -⟩ := hfetch.of_fetch
  obtain ⟨rfl, -, hentries⟩ := hpure.of_pure
  cases hentries
  rw [List.append_nil]
  have hselect : (request.select pageSize).table = "manga" ∧ (request.select pageSize).columns = none := by
    unfold ListingRequest.select
    split <;> split <;> exact ⟨rfl, rfl⟩
  -- Sorting the entries afterwards only moves them.
  have hmade := madeFrom_of_annotate
    (fun row hrow => ⟨_, rows, List.mem_singleton_self _, hselect.1, hselect.2, hrow⟩) hannotate
  intro entry hentry
  exact hmade entry ((request.perm_arrange found).mem_iff.mp hentry)

namespace Search

theorem madeFrom_entriesOf {works : List Ident} {exchanges : List Exchange} {counted : Tally}
    {entries : List Entry} (hcourse : Course (entriesOf works) exchanges counted (.ok entries)) :
    MadeFrom exchanges entries := by
  obtain ⟨rows, first, second, _, _, hrows, hannotate, rfl, -⟩ := hcourse.of_bind_ok
  exact madeFrom_of_annotate (answered_among hrows) hannotate

theorem madeFrom_entries? {query : String} {exchanges : List Exchange} {counted : Tally}
    {found : Option (List Entry)}
    (hcourse : Course (entries? query) exchanges counted (.ok found)) :
    MadeFrom exchanges (found.getD []) := by
  unfold entries? at hcourse
  extract_lets criteria at hcourse
  split at hcourse
  next =>
    obtain ⟨-, -, hnone⟩ := hcourse.of_pure
    cases hnone
    exact .nil _
  next =>
    obtain ⟨works, first, second, _, _, -, hrest, rfl, -⟩ := hcourse.of_bind_ok
    cases works with
    | nil =>
        obtain ⟨-, -, hempty⟩ := hrest.of_pure
        cases hempty
        exact .nil _
    | cons work others =>
        obtain ⟨entries, third, fourth, _, _, hentries, hpure, rfl, -⟩ := hrest.of_bind_ok
        obtain ⟨rfl, -, hsome⟩ := hpure.of_pure
        cases hsome
        rw [List.append_nil]
        exact (madeFrom_entriesOf hentries.of_mapError_ok).append_right first

end Search

theorem search_madeFrom (responder : Responder σ) (query : String) (state : σ) {entries : List Entry}
    (hresult : (search responder query state).result = .ok entries) :
    MadeFrom (responder.exchanges (search responder query state).asked state) entries := by
  have hcourse := course_run (Search.entries? query) responder state
  have hfound : ((Search.entries? query).run responder state).result.map
      (fun found => found.getD []) = .ok entries := hresult
  show MadeFrom (responder.exchanges ((Search.entries? query).run responder state).asked state) entries
  cases hrun : ((Search.entries? query).run responder state).result with
  | error error =>
      rw [hrun] at hfound
      cases hfound
  | ok found =>
      rw [hrun] at hfound hcourse
      cases hfound
      exact Search.madeFrom_entries? hcourse

/-! ## Entries read back -/

theorem Json.isMadeOf_ofTexts (keeps : JsonNumber → Prop) (texts : List String) :
    (Json.ofTexts texts).IsMadeOf keeps := by
  refine .array fun item hitem => ?_
  obtain ⟨s, -, rfl⟩ := List.mem_map.mp hitem
  exact .text s

/-- Every field is one of the two lists or stands in another column. -/
theorem Record.perm_lists_ownColumns (fields : Record) :
    ((fields.filter fun field => field.1 = "tags") ++
      ((fields.filter fun field => field.1 = "artist") ++ fields.ownColumns)).Perm fields := by
  have hown : fields.ownColumns = (fields.filter fun field => !decide (field.1 = "tags")).filter
      fun field => !decide (field.1 = "artist") := by
    rw [ownColumns, List.filter_filter]
    apply List.filter_congr
    intro field _
    simp [Entry.listNames, not_or, and_comm]
  have hartist : (fields.filter fun field => field.1 = "artist") =
      (fields.filter fun field => !decide (field.1 = "tags")).filter fun field => field.1 = "artist" := by
    rw [List.filter_filter]
    apply List.filter_congr
    intro field _
    by_cases hname : field.1 = "artist" <;> simp [hname]
  rw [hown, hartist]
  exact ((List.filter_append_perm _ _).append_left _).trans (List.filter_append_perm _ _)

/-- What is sent of an entry is made of the numbers of its row and has no name twice. -/
theorem Entry.ShowsRow.isMadeOf {entry : Entry} {row : Record} (hshows : entry.ShowsRow row)
    {keeps : JsonNumber → Prop} (hrow : (Json.object row).IsMadeOf keeps) :
    entry.toJson.IsMadeOf keeps := by
  obtain ⟨fields, hfields, hown, htags, hartists⟩ := hshows
  obtain ⟨hnames, hvalues⟩ : (row.map Prod.fst).Nodup ∧ ∀ column ∈ row, column.2.IsMadeOf keeps := by
    cases hrow with
    | object hnames hvalues => exact ⟨hnames, hvalues⟩
  have hparts := Record.perm_lists_ownColumns fields
  rw [htags, hartists, hown] at hparts
  have hnew : ∀ name ∈ listNames, name ∉ row.ownColumns.map Prod.fst := by
    intro name hname hmem
    obtain ⟨column, hcolumn, rfl⟩ := List.mem_map.mp hmem
    have hother := (List.mem_filter.mp hcolumn).2
    simp [hname] at hother
  rw [hfields]
  refine .object ?_ fun field hfield => ?_
  · rw [← (hparts.map Prod.fst).nodup_iff]
    have hdistinct : (row.ownColumns.map Prod.fst).Nodup := hnames.sublist (List.filter_sublist.map _)
    have htag := hnew "tags" (by simp [listNames])
    have hartist := hnew "artist" (by simp [listNames])
    simpa using ⟨by simpa using htag, by simpa using hartist, hdistinct⟩
  · rcases List.mem_append.mp (hparts.mem_iff.mpr hfield) with htag | hother
    · rw [List.mem_singleton.mp htag]
      exact Json.isMadeOf_ofTexts keeps _
    · rcases List.mem_append.mp hother with hartist | hcolumn
      · rw [List.mem_singleton.mp hartist]
        exact Json.isMadeOf_ofTexts keeps _
      · exact hvalues field (List.mem_of_mem_filter hcolumn)

/-- Entries are read back if the rows that were answered are. -/
theorem MadeFrom.isMadeOf {exchanges : List Exchange} {entries : List Entry}
    (hmade : MadeFrom exchanges entries) {keeps : JsonNumber → Prop}
    (hrows : ∀ row, Answered exchanges row → (Json.object row).IsMadeOf keeps) :
    (Json.array (entries.map Entry.toJson)).IsMadeOf keeps := by
  refine .array fun item hitem => ?_
  obtain ⟨entry, hentry, rfl⟩ := List.mem_map.mp hitem
  obtain ⟨row, hrow, hshows⟩ := hmade entry hentry
  exact hshows.isMadeOf (hrows row hrow)

theorem answer_of_mem_exchanges {db : Database} {asked : List Select} {select : Select}
    {answer : Except StoreError (List Record)}
    (hexchange : (select, answer) ∈ Responder.exchanges Source.respond asked (.database db)) :
    db.answer select = answer := by
  induction asked with
  | nil => cases hexchange
  | cons first rest ih =>
      rcases List.mem_cons.mp hexchange with hfirst | hrest
      · cases hfirst
        rfl
      · exact ih hrest

/-- A cell of a sound database is shown as a value that is read back. -/
theorem Cell.IsHeld.isMadeOf_toJson {affinity : Affinity} {cell : Cell} (hheld : cell.IsHeld affinity) :
    cell.toJson.IsMadeOf (·.IsReadBack Json.nearest?) := by
  cases cell with
  | null => exact .null
  | text bytes => exact .text _
  | blob bytes => exact .null
  | integer n =>
      obtain ⟨hleast, hmost⟩ := Word.isSigned_iff.mp (hheld.isSigned n rfl)
      refine .number (JsonNumber.isReadBack_whole _ hleast (hmost.trans ?_))
      decide
  | real x =>
      rw [Cell.toJson]
      split
      next hfinite => exact .number (JsonNumber.isReadBack_real hfinite)
      next => exact .null

/-- The rows of works that a sound database answers are read back. -/
theorem Database.Sound.isMadeOf_answered {db : Database} (hsound : db.Sound) {asked : List Select}
    {row : Record} (hrow : Answered (Responder.exchanges Source.respond asked (.database db)) row) :
    (Json.object row).IsMadeOf (·.IsReadBack Json.nearest?) := by
  obtain ⟨select, rows, hexchange, htable, hcolumns, hmem⟩ := hrow
  have hworks : Table.named? select.table = some .works := by
    rw [htable]
    decide
  obtain ⟨works, hworks, rfl⟩ := rows_of_answer hworks (answer_of_mem_exchanges hexchange)
  obtain ⟨work, hwork, rfl⟩ := List.mem_map.mp hmem
  have hstored : work ∈ db.rows .works := hworks.subset hwork
  have hlabels : (Table.works.slots.map Table.works.label).Nodup := by decide
  have hslots : Database.asked .works select = Table.works.slots := by
    simp [Database.asked, Select.namedColumns, hcolumns]
  rw [hslots, record_eq hlabels]
  refine .object (by rwa [List.map_map]) fun field hfield => ?_
  obtain ⟨slot, hslot, rfl⟩ := List.mem_map.mp hfield
  cases slot with
  | key =>
      have hheld : (work.cell .key).IsHeld .integer := by
        refine ⟨rfl, ?_⟩
        rintro n ⟨⟩
        exact hsound.keys_isSigned .works work hstored
      exact hheld.isMadeOf_toJson
  | column index =>
      have hindex : index < Table.works.columns.length := by simpa [Table.slots] using hslot
      exact (hsound.held .works work hstored index _
        (List.getElem?_eq_getElem hindex)).isMadeOf_toJson

end ComicCatalog
