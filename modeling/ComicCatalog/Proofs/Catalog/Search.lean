import ComicCatalog.Catalog.Search
import ComicCatalog.Proofs.Catalog.Annotation
import ComicCatalog.Proofs.Catalog.Matching

/-! # What a search shows

A search resolves its query to identifiers and shows the works that these name. An
identifier that was looked up for a facet or a title is the number of a work as it is
written, so only an identifier that was typed can name a work in another spelling.
-/

namespace ComicCatalog

open Lookup

variable {db : Database}

/-! ## Identifiers that name works -/

namespace Database

/-- The identifier fits every field that the criteria give values. -/
def FitsAll (db : Database) (criteria : Criteria) (id : Ident) : Prop :=
  ∀ field, criteria.values field ≠ [] → db.Fits field (criteria.values field) id

/-- An identifier that fits the criteria names the work. -/
def Yields (db : Database) (criteria : Criteria) (work : Row) : Prop :=
  ∃ id, Cell.rowNumber? id.text = some work.key ∧ db.FitsAll criteria id

/-- Looked-up identifiers name works by the numbers that they are. -/
theorem Fits.eq_of_rowNumber? (hsound : db.Sound) {field : Field} {values : List String}
    {id : Ident} {n : Int} (hfits : db.Fits field values id) (hvalues : values ≠ [])
    (hfield : field ≠ .id) (hrow : Cell.rowNumber? id.text = some n) : id = ⟨toString n⟩ := by
  cases field with
  | id => exact absurd rfl hfield
  | title =>
      obtain ⟨work, hwork, -, rfl⟩ := hfits
      rw [Row.ident, Cell.rowNumber?_toString (hsound.keys_isSigned _ work hwork)] at hrow
      cases hrow
      rfl
  | facet kind =>
      obtain ⟨value, rest, rfl⟩ := List.exists_cons_of_ne_nil hvalues
      obtain ⟨name, -, -, link, hlink, -, hid⟩ := hfits value List.mem_cons_self
      have hheld : (link.cell (.column 0)).IsHeld .integer := hsound.held _ link hlink 0 _ rfl
      exact (hheld.eq_of_rowNumber? hid hrow).2

/-- What names a work is spelled as the identifier values are and, beside any other
field, as the number of the work. -/
theorem FitsAll.eq_spelling (hsound : db.Sound) {criteria : Criteria} {id spelling : Ident} {n : Int}
    (hfits : db.FitsAll criteria id) (hpresent : criteria.isEmpty = false)
    (hrow : Cell.rowNumber? id.text = some n)
    (hids : ∀ value ∈ criteria.values .id, Ident.ofText value = spelling)
    (hothers : (∃ field ≠ .id, criteria.values field ≠ []) → spelling = ⟨toString n⟩) :
    id = spelling := by
  by_cases hid : criteria.values .id = []
  · -- Without identifier values the identifier was looked up for another field.
    obtain ⟨field, hvalues⟩ := Criteria.exists_values hpresent
    have hne : field ≠ .id := by
      rintro rfl
      exact hvalues hid
    rw [hothers ⟨field, hne, hvalues⟩]
    exact (hfits field hvalues).eq_of_rowNumber? hsound hvalues hne hrow
  · obtain ⟨value, hvalue⟩ := List.exists_mem_of_ne_nil _ hid
    rw [hfits .id hid value hvalue, hids value hvalue]

/-- Beside any other field, what names a work is its number. -/
theorem FitsAll.eq_of_others (hsound : db.Sound) {criteria : Criteria} {id : Ident} {n : Int}
    (hfits : db.FitsAll criteria id) (hrow : Cell.rowNumber? id.text = some n)
    (hothers : ∃ field ≠ .id, criteria.values field ≠ []) : id = ⟨toString n⟩ := by
  obtain ⟨field, hne, hvalues⟩ := hothers
  exact (hfits field hvalues).eq_of_rowNumber? hsound hvalues hne hrow

theorem FitsAll.eq_ofText {criteria : Criteria} {id : Ident} (hfits : db.FitsAll criteria id) :
    ∀ value ∈ criteria.values .id, Ident.ofText value = id := fun value hvalue =>
  (hfits .id (List.ne_nil_of_mem hvalue) value hvalue).symm

/-- Two identifiers of one query do not name the same work. -/
theorem eq_of_fitsAll (hsound : db.Sound) {criteria : Criteria} {first second : Ident} {n : Int}
    (hpresent : criteria.isEmpty = false) (hfirst : db.FitsAll criteria first)
    (hsecond : db.FitsAll criteria second) (hrow : Cell.rowNumber? first.text = some n)
    (hrow' : Cell.rowNumber? second.text = some n) : first = second :=
  hfirst.eq_spelling hsound hpresent hrow hsecond.eq_ofText (hsecond.eq_of_others hsound hrow')

end Database

/-! ## The works of a search -/

namespace Search

theorem resultOn_entriesOf_nil : (entriesOf []).resultOn db = .ok [] := by
  have hrows : (rowsOf []).resultOn db = .ok [] := by
    rw [rowsOf, List.map_nil, among, pieces]
    rfl
  rw [entriesOf, resultOn_bind_of_ok hrows]
  rfl

/-- The entries of identifiers no two of which name the same work. -/
theorem resultOn_entriesOf (hsound : db.Sound) {ids : List Ident} (hids : ids.Nodup)
    (hunique : ∀ first ∈ ids, ∀ second ∈ ids, ∀ n, Cell.rowNumber? first.text = some n →
      Cell.rowNumber? second.text = some n → first = second) :
    ∃ works : List Row, works.Nodup ∧
      (∀ work, work ∈ works ↔ work ∈ db.rows .works ∧
        ∃ id ∈ ids, Cell.rowNumber? id.text = some work.key) ∧
      (entriesOf ids).resultOn db = .ok (works.map db.entry) := by
  -- The rows come piece by piece, in the order of the pieces.
  have hrows : (rowsOf ids).resultOn db = .ok ((db.numbered .works (ids.map Ident.text)).map
      (Database.record .works Table.works.slots)) :=
    resultOn_rowsAmong (ids.map Ident.text) fun _ => Database.answer_rowsOf
  have hmem : ∀ work, work ∈ db.numbered .works (ids.map Ident.text) ↔ work ∈ db.rows .works ∧
      ∃ id ∈ ids, Cell.rowNumber? id.text = some work.key := by
    intro work
    rw [mem_numbered]
    simp only [List.mem_map, exists_exists_and_eq_and]
  have hnodup : (db.numbered .works (ids.map Ident.text)).Nodup := by
    refine nodup_rowsAmong (hsound.nodup_rows _) (hids.map ?_) ?_
    · intro first second htext
      exact congrArg Ident.mk htext
    · -- A row that two pieces have would be named by two of the identifiers.
      intro row hrow first hfirst second hsecond htest htest'
      obtain ⟨firstId, hfirstId, rfl⟩ := List.mem_map.mp hfirst
      obtain ⟨secondId, hsecondId, rfl⟩ := List.mem_map.mp hsecond
      rw [hunique firstId hfirstId secondId hsecondId row.key (beq_iff_eq.mp htest)
        (beq_iff_eq.mp htest')]
  refine ⟨db.numbered .works (ids.map Ident.text), hnodup, hmem, ?_⟩
  have hstored : ∀ work ∈ db.numbered .works (ids.map Ident.text), work ∈ db.rows .works :=
    fun work hwork => ((hmem work).mp hwork).1
  rw [entriesOf, resultOn_bind_of_ok hrows]
  exact resultOn_annotate hsound (fun work hwork => hsound.keys_isSigned _ work (hstored work hwork))
    (hsound.nodup_keys hnodup hstored)

/-- The entries of the identifiers that a query finds are those of the works it yields. -/
theorem resultOn_entriesOf_works (hsound : db.Sound) {criteria : Criteria}
    (hpresent : criteria.isEmpty = false) {ids : List Ident}
    (hids : criteria.works.resultOn db = .ok ids) :
    ∃ works : List Row, works.Nodup ∧
      (∀ work, work ∈ works ↔ work ∈ db.rows .works ∧ db.Yields criteria work) ∧
      (entriesOf ids).resultOn db = .ok (works.map db.entry) := by
  obtain ⟨hnodup, hmem⟩ := criteria.resultOn_works hsound hids
  obtain ⟨works, hworks, hmemWorks, hentries⟩ := resultOn_entriesOf hsound hnodup
    fun first hfirst second hsecond n => Database.eq_of_fitsAll hsound hpresent
      ((hmem first).mp hfirst).2 ((hmem second).mp hsecond).2
  refine ⟨works, hworks, ?_, hentries⟩
  intro work
  rw [hmemWorks]
  simp only [hmem, hpresent, true_and]
  apply and_congr_right
  intro _
  apply exists_congr
  intro id
  exact and_comm

/-- The works that an identifier satisfying the whole query names. -/
theorem resultOn_entries? (hsound : db.Sound) {query : String} {found : Option (List Entry)}
    (hfound : (entries? query).resultOn db = .ok found) :
    ∃ works : List Row, works.Nodup ∧
      (∀ work, work ∈ works ↔ work ∈ db.rows .works ∧ (Criteria.ofQuery query).isEmpty = false ∧
        db.Yields (Criteria.ofQuery query) work) ∧
      found.getD [] = works.map db.entry := by
  unfold entries? at hfound
  generalize hcriteria : Criteria.ofQuery query = criteria at hfound ⊢
  cases hempty : criteria.isEmpty with
  | true =>
      simp only [hempty, if_true] at hfound
      cases hfound
      exact ⟨[], List.nodup_nil, by simp, rfl⟩
  | false =>
      simp only [hempty, Bool.false_eq_true, if_false] at hfound
      obtain ⟨ids, hids, hrest⟩ := resultOn_bind_eq_ok.mp hfound
      obtain ⟨works, hworks, hmem, hentries⟩ :=
        resultOn_entriesOf_works hsound hempty (resultOn_mapError_eq_ok.mp hids)
      refine ⟨works, hworks, ?_, ?_⟩
      · intro work
        rw [hmem, eq_self, true_and]
      · cases ids with
        | nil =>
            -- The lookup stops here, and shows no works as the longer way would.
            cases hrest
            rw [resultOn_entriesOf_nil] at hentries
            exact Except.ok.inj hentries
        | cons id rest =>
            have hshown : (some <$> (entriesOf (id :: rest)).mapError CatalogError.store).resultOn db =
                .ok found := hrest
            rw [resultOn_map, resultOn_mapError, hentries] at hshown
            cases hshown
            rfl

/-- Only a phrase that is too long keeps a search from being answered. -/
theorem exists_entries? (hsound : db.Sound) {query : String}
    (hshort : (Criteria.ofQuery query).HasShortPhrase) :
    ∃ found, (entries? query).resultOn db = .ok found := by
  unfold entries?
  generalize Criteria.ofQuery query = criteria at hshort ⊢
  cases hempty : criteria.isEmpty with
  | true =>
      simp only [hempty, if_true]
      exact ⟨none, rfl⟩
  | false =>
      obtain ⟨ids, hids⟩ := Criteria.exists_works hsound hshort
      obtain ⟨works, -, -, hentries⟩ := resultOn_entriesOf_works hsound hempty hids
      simp only [hempty, Bool.false_eq_true, if_false]
      rw [resultOn_bind_of_ok (resultOn_mapError_eq_ok.mpr hids)]
      cases ids with
      | nil => exact ⟨some [], rfl⟩
      | cons id rest =>
          refine ⟨some (works.map db.entry), ?_⟩
          rw [resultOn_map, resultOn_mapError, hentries]
          rfl

end Search

/-- A search over a database has the result of its lookup. -/
theorem search_result (db : Database) (query : String) :
    (search Source.respond query (.database db)).result =
      ((Search.entries? query).resultOn db).map fun found => found.getD [] := by
  rw [← (run_database db (Search.entries? query)).1]
  rfl

/-- The works that a search shows, and what it shows of them. -/
theorem search_works (hsound : db.Sound) {query : String} {entries : List Entry}
    (hresult : (search Source.respond query (.database db)).result = .ok entries) :
    ∃ works : List Row, works.Nodup ∧
      (∀ work, work ∈ works ↔ work ∈ db.rows .works ∧ (Criteria.ofQuery query).isEmpty = false ∧
        db.Yields (Criteria.ofQuery query) work) ∧
      entries = works.map db.entry := by
  rw [search_result] at hresult
  cases hfound : (Search.entries? query).resultOn db with
  | error failure =>
      rw [hfound] at hresult
      cases hresult
  | ok found =>
      rw [hfound] at hresult
      cases hresult
      exact Search.resultOn_entries? hsound hfound

/-- A search of which every select is answered has a result. -/
theorem exists_search_result {query : String}
    (hasked : ∀ select ∈ (search Source.respond query (.database db)).asked,
      ∃ rows, db.answer select = .ok rows) :
    ∃ entries, (search Source.respond query (.database db)).result = .ok entries := by
  obtain ⟨found, hfound⟩ := @exists_resultOn _ _ db (Search.entries? query) hasked
  refine ⟨found.getD [], ?_⟩
  rw [search_result, hfound]
  rfl

/-- Every select of a search is answered if its phrase is not too long. -/
theorem search_answered (hsound : db.Sound) {query : String}
    (hshort : (Criteria.ofQuery query).HasShortPhrase) :
    ∀ select ∈ (search Source.respond query (.database db)).asked,
      ∃ rows, db.answer select = .ok rows := by
  obtain ⟨found, hfound⟩ := Search.exists_entries? hsound hshort
  exact answered_of_resultOn hfound

end ComicCatalog
