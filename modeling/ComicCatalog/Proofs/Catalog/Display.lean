import ComicCatalog.Proofs.Catalog.Links
import ComicCatalog.Proofs.Catalog.Paging
import ComicCatalog.Proofs.Catalog.Search

/-! # How works are shown

A work is shown with its stored columns and with the names that its links point at, one
for each link that points at a name and in the order of the links. Neither the question
that is answered nor the other works of the answer matter to it.
-/

namespace ComicCatalog

namespace Database

/-- What a database answers, to a listing or to a search. -/
inductive Answers (db : Database) : List Entry → Prop
  | listing (request : ListingRequest) (pageSize : Nat) {entries : List Entry}
      (hresult : ((request.entries pageSize).run Source.respond (.database db)).result =
        .ok entries) : Answers db entries
  | search (query : String) {entries : List Entry}
      (hresult : (search Source.respond query (.database db)).result = .ok entries) :
      Answers db entries

/-- The entry shows the columns of the work, and its names along all links. -/
structure Shows (db : Database) (work : Row) (entry : Entry) : Prop where
  fields : entry.fields =
    Table.works.slots.map fun slot => (Table.works.label slot, (work.cell slot).toJson)
  tags : db.NamesAlong .tag work (db.rows (.links .tag)) entry.tags
  artists : db.NamesAlong .artist work (db.rows (.links .artist)) entry.artists

variable {db : Database}

theorem fields_entry (db : Database) (work : Row) : (db.entry work).fields =
    Table.works.slots.map fun slot => (Table.works.label slot, (work.cell slot).toJson) := by
  have hlabels : (Table.works.slots.map Table.works.label).Nodup := by decide
  rw [entry, Entry.ofRecord, record_eq hlabels]
  rfl

theorem shows_entry (hsound : db.Sound) (work : Row) : db.Shows work (db.entry work) where
  fields := db.fields_entry work
  tags := namesAlong_filterMap hsound .tag work _
  artists := namesAlong_filterMap hsound .artist work _

/-- Every entry of an answer is that of a stored work. -/
theorem Answers.exists_work (hsound : db.Sound) {entries : List Entry} (hanswers : db.Answers entries)
    {entry : Entry} (hentry : entry ∈ entries) : ∃ work ∈ db.rows .works, entry = db.entry work := by
  cases hanswers with
  | listing request pageSize hresult =>
      obtain ⟨works, hworks, hperm⟩ := ListingRequest.listed_works hsound hresult
      obtain ⟨work, hwork, rfl⟩ := List.mem_map.mp (hperm.mem_iff.mp hentry)
      exact ⟨work, hworks.subset hwork, rfl⟩
  | search query hresult =>
      obtain ⟨works, -, hmem, rfl⟩ := search_works hsound hresult
      obtain ⟨work, hwork, rfl⟩ := List.mem_map.mp hentry
      exact ⟨work, ((hmem work).mp hwork).1, rfl⟩

theorem exists_answer (hsound : db.Sound) {work : Row} (hwork : work ∈ db.rows .works) :
    ∃ listed, db.Answers listed ∧ db.entry work ∈ listed := by
  obtain ⟨listed, hlisted, hperm⟩ := @ListingRequest.exists_listed db hsound ⟨none, .ascending, []⟩
    rfl (by rintro name ⟨⟩) (db.rows .works).length (Nat.le_refl _)
  exact ⟨listed, .listing _ _ hlisted, hperm.mem_iff.mpr (List.mem_map_of_mem hwork)⟩

/-- Each entry shows a stored work, all answers show it alike, and no stored work is left
out of all answers. -/
theorem answers_show_works (hsound : db.Sound) {entries : List Entry} (hanswers : db.Answers entries) :
    (∀ entry ∈ entries, ∃ work ∈ db.rows .works, db.Shows work entry) ∧
    (∀ others, db.Answers others → ∀ entry ∈ entries, ∀ other ∈ others,
      entry.id? = other.id? → entry = other) ∧
    ∀ work ∈ db.rows .works, ∃ listed, db.Answers listed ∧ ∃ entry ∈ listed, db.Shows work entry := by
  refine ⟨?_, ?_, ?_⟩
  · intro entry hentry
    obtain ⟨work, hwork, rfl⟩ := hanswers.exists_work hsound hentry
    exact ⟨work, hwork, shows_entry hsound work⟩
  · intro others hothers entry hentry other hother hid
    obtain ⟨work, hwork, rfl⟩ := hanswers.exists_work hsound hentry
    obtain ⟨work', hwork', rfl⟩ := hothers.exists_work hsound hother
    rw [id?_entry, id?_entry, Option.some.injEq] at hid
    have hkey := key_eq_of_ident hid
    rw [hsound.eq_of_key hwork hwork' hkey]
  · intro work hwork
    obtain ⟨listed, hlisted, hentry⟩ := exists_answer hsound hwork
    exact ⟨listed, hlisted, db.entry work, hentry, shows_entry hsound work⟩

theorem answers_show_works_sample : ∃ listed found : List Entry,
    ((ListingRequest.entries ⟨some .artist, .descending, []⟩ 5).run Source.respond
      (.database .sample)).result = .ok listed ∧
    (search Source.respond "tag:dog" (.database .sample)).result = .ok found ∧
    listed.length = 5 ∧
    (∀ entry ∈ listed, ∃ work ∈ sample.rows .works, sample.Shows work entry) ∧
    ∀ entry ∈ listed, ∀ other ∈ found, entry.id? = other.id? → entry = other := by
  have hshort : (Criteria.ofQuery "tag:dog").HasShortPhrase := by
    intro htitle
    exact absurd (by cbv) htitle
  obtain ⟨listed, hlisted, hperm⟩ := @ListingRequest.exists_listed .sample sample_sound
    ⟨some .artist, .descending, []⟩ rfl (by rintro name ⟨⟩) 5 (by decide)
  obtain ⟨found, hfound⟩ := exists_search_result (search_answered sample_sound hshort)
  obtain ⟨hshows, hsame, -⟩ := answers_show_works sample_sound (.listing _ _ hlisted)
  exact ⟨listed, found, hlisted, hfound, hperm.length_eq, hshows, hsame found (.search _ hfound)⟩

end Database

end ComicCatalog
