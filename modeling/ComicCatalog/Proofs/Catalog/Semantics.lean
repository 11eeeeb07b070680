import ComicCatalog.Proofs.Catalog.Links
import ComicCatalog.Proofs.Catalog.Search
import Mathlib

/-! # What a query means

A work matches a query if it carries every facet value, has the title phrase, and is the
number that every identifier value spells. A search shows the matching works, each once.
What a title has is up to the substring test of the database, which is containment of
lowercase texts except where a text holds a NUL or a noncharacter.
-/

namespace ComicCatalog

/-- The text spells a whole number of 64 bits, blanks around it aside. -/
def Ident.Spells (text : String) (n : Int) : Prop :=
  Ident.integer? (Text.strip Text.isBlank text.toList) = some n

namespace Database

variable {db : Database}

/-- The work satisfies every value that a query asks for. -/
structure Matches (db : Database) (criteria : Criteria) (work : Row) : Prop where
  facets : ∀ facet, ∀ value ∈ criteria.values (.facet facet), db.Tied facet value work
  title : criteria.values .title ≠ [] →
    TitleFinds (" ".intercalate (criteria.values .title)) work
  ids : ∀ value ∈ criteria.values .id, Ident.Spells value work.key

/-- The lowercase phrase stands in the lowercase title. -/
def TitleHas (phrase : String) (work : Row) : Prop :=
  ∃ title, (work.cell (.column 0)).folded? = some title ∧
    Text.foldList phrase.toList <:+: title.toList

/-- The database finds a phrase in a title where it stands, as long as it sees the
characters of both as they are. -/
theorem titleFinds_iff_titleHas {phrase : String} {work : Row}
    (hphrase : ∀ c ∈ Text.foldList phrase.toList, Pattern.IsSeen c)
    (htitle : ∀ title, (work.cell (.column 0)).folded? = some title →
      ∀ c ∈ title.toList, Pattern.IsSeen c) : TitleFinds phrase work ↔ TitleHas phrase work := by
  constructor
  · rintro ⟨title, hfolded, hfinds⟩
    exact ⟨title, hfolded, (Pattern.finds_iff_infix hphrase (htitle title hfolded)).mp hfinds⟩
  · rintro ⟨title, hfolded, hinfix⟩
    exact ⟨title, hfolded, (Pattern.finds_iff_infix hphrase (htitle title hfolded)).mpr hinfix⟩

/-! ## Identifiers and rows -/

theorem carries_ident_iff (hsound : db.Sound) {facet : Facet} {value : String} {work : Row} :
    db.Carries facet value work.ident ↔ db.Tied facet value work := by
  have hends : ∀ link ∈ db.rows (.links facet),
      Ident.ofJson? (link.cell (.column 0)).toJson = some work.ident ↔
        link.cell (.column 0) = .integer work.key := by
    intro link hlink
    have hheld : (link.cell (.column 0)).IsHeld .integer := hsound.held _ link hlink 0 _ rfl
    exact hheld.ofJson?_eq_ident
  constructor
  · rintro ⟨name, hname, hfolded, link, hlink, hequals, hid⟩
    exact ⟨name, hname, hfolded, link, hlink, (hends link hlink).mp hid, hequals⟩
  · rintro ⟨name, hname, hfolded, link, hlink, ⟨hcell, hequals⟩⟩
    exact ⟨name, hname, hfolded, link, hlink, hequals, (hends link hlink).mpr hcell⟩

theorem fits_title_iff (hsound : db.Sound) {values : List String} {work : Row}
    (hwork : work ∈ db.rows .works) :
    db.Fits .title values work.ident ↔ TitleFinds (" ".intercalate values) work := by
  constructor
  · rintro ⟨other, hother, hfinds, hident⟩
    have hkey := key_eq_of_ident hident
    rwa [hsound.eq_of_key hwork hother hkey]
  · intro hfinds
    exact ⟨work, hwork, hfinds, rfl⟩

theorem isSigned_of_spells {text : String} {n : Int} (hspells : Ident.Spells text n) :
    Word.isSigned n = true :=
  (Option.filter_eq_some_iff.mp hspells).2

theorem ofText_of_spells {text : String} {n : Int} (hspells : Ident.Spells text n) :
    Ident.ofText text = ⟨toString n⟩ := by
  unfold Ident.Spells at hspells
  simp only [Ident.ofText, hspells]

theorem eq_ofText_iff_spells {text : String} {n : Int} (hspells : Ident.Spells text n) {work : Row} :
    work.ident = Ident.ofText text ↔ Ident.Spells text work.key := by
  rw [ofText_of_spells hspells]
  constructor
  · intro hident
    have hkey : work.key = n := @key_eq_of_ident work ⟨n, []⟩ hident
    rwa [hkey]
  · intro hkey
    rw [Option.some.inj (hspells.symm.trans hkey)]
    rfl

/-- A work matches a query if its identifier fits all of the fields. -/
theorem fits_ident_iff_matches (hsound : db.Sound) {criteria : Criteria} {work : Row}
    (hwork : work ∈ db.rows .works)
    (hids : ∀ value ∈ criteria.values .id, ∃ n, Ident.Spells value n) :
    db.FitsAll criteria work.ident ↔ db.Matches criteria work := by
  have hspells : ∀ value ∈ criteria.values .id,
      (work.ident = Ident.ofText value ↔ Ident.Spells value work.key) := by
    intro value hvalue
    obtain ⟨n, hn⟩ := hids value hvalue
    exact eq_ofText_iff_spells hn
  constructor
  · intro hfits
    refine ⟨?_, ?_, ?_⟩
    · intro facet value hvalue
      exact (carries_ident_iff hsound).mp
        (hfits (.facet facet) (List.ne_nil_of_mem hvalue) value hvalue)
    · intro htitle
      exact (fits_title_iff hsound hwork).mp (hfits .title htitle)
    · intro value hvalue
      exact (hspells value hvalue).mp (hfits .id (List.ne_nil_of_mem hvalue) value hvalue)
  · intro hmatches field hvalues
    cases field with
    | facet kind =>
        intro value hvalue
        exact (carries_ident_iff hsound).mpr (hmatches.facets kind value hvalue)
    | title => exact (fits_title_iff hsound hwork).mpr (hmatches.title hvalues)
    | id =>
        intro value hvalue
        exact (hspells value hvalue).mpr (hmatches.ids value hvalue)

/-- Where identifier values are whole numbers, a query is satisfied by identifiers that
are written as the numbers of works only. -/
theorem eq_ident_of_fits (hsound : db.Sound) {criteria : Criteria} {work : Row} {id : Ident}
    (hpresent : criteria.isEmpty = false)
    (hids : ∀ value ∈ criteria.values .id, ∃ n, Ident.Spells value n)
    (hrow : Cell.rowNumber? id.text = some work.key)
    (hfits : db.FitsAll criteria id) : id = work.ident := by
  refine hfits.eq_spelling hsound hpresent hrow ?_ fun _ => rfl
  intro value hvalue
  obtain ⟨n, hn⟩ := hids value hvalue
  have htext : id = ⟨toString n⟩ := (hfits.eq_ofText value hvalue).symm.trans (ofText_of_spells hn)
  rw [htext, Cell.rowNumber?_toString (isSigned_of_spells hn)] at hrow
  rw [ofText_of_spells hn, Row.ident, Option.some.inj hrow]

/-- A query whose identifier values are whole numbers yields the works that match it. -/
theorem yields_iff_matches (hsound : db.Sound) {criteria : Criteria} {work : Row}
    (hpresent : criteria.isEmpty = false) (hwork : work ∈ db.rows .works)
    (hids : ∀ value ∈ criteria.values .id, ∃ n, Ident.Spells value n) :
    db.Yields criteria work ↔ db.Matches criteria work := by
  rw [← fits_ident_iff_matches hsound hwork hids]
  constructor
  · rintro ⟨id, hrow, hfits⟩
    rwa [← eq_ident_of_fits hsound hpresent hids hrow hfits]
  · intro hfits
    exact ⟨work.ident, Cell.rowNumber?_toString (hsound.keys_isSigned _ work hwork), hfits⟩

end Database

/-! ## Searches -/

variable {db : Database}

/-- A search shows exactly the works that match its query, each once, and nothing if the
query asks for nothing. Titles are those that the database finds the phrase in, which is
containment for characters that it sees. -/
theorem search_shows_matches (hsound : db.Sound) (query : String) :
    ((Criteria.ofQuery query).isEmpty = true →
      (search Source.respond query (.database db)).result = .ok []) ∧
    ((Criteria.ofQuery query).isEmpty = false →
      (∀ value ∈ (Criteria.ofQuery query).values .id, ∃ n, Ident.Spells value n) →
      (∀ select ∈ (search Source.respond query (.database db)).asked,
        ∃ rows, db.answer select = .ok rows) →
      ∃ works : List Row, works.Nodup ∧
        (∀ work, work ∈ works ↔
          work ∈ db.rows .works ∧ db.Matches (Criteria.ofQuery query) work) ∧
        (search Source.respond query (.database db)).result = .ok (works.map db.entry)) ∧
    ∀ phrase work, (∀ c ∈ Text.foldList phrase.toList, Pattern.IsSeen c) →
      (∀ title, (work.cell (.column 0)).folded? = some title → ∀ c ∈ title.toList, Pattern.IsSeen c) →
      (Database.TitleFinds phrase work ↔ Database.TitleHas phrase work) := by
  refine ⟨?_, ?_, fun phrase work => Database.titleFinds_iff_titleHas⟩
  · intro hempty
    rw [search_result, Search.entries?]
    simp only [hempty, if_true]
    rfl
  · intro hpresent hids hasked
    obtain ⟨entries, hresult⟩ := exists_search_result hasked
    obtain ⟨works, hnodup, hmem, rfl⟩ := search_works hsound hresult
    refine ⟨works, hnodup, ?_, hresult⟩
    intro work
    rw [hmem]
    apply and_congr_right
    intro hwork
    rw [and_iff_right hpresent, Database.yields_iff_matches hsound hpresent hwork hids]

theorem search_shows_matches_sample :
    ∃ works : List Row, works.Nodup ∧
      (∀ work, work ∈ works ↔ work ∈ Database.sample.rows .works ∧
        Database.sample.Matches (Criteria.ofQuery "id:01 tag:Dog") work) ∧
      (search Source.respond "id:01 tag:Dog" (.database .sample)).result =
        .ok (works.map Database.sample.entry) := by
  have hids : (Criteria.ofQuery "id:01 tag:Dog").values .id = ["01"] := by cbv
  have htitle : (Criteria.ofQuery "id:01 tag:Dog").values .title = [] := by cbv
  apply (search_shows_matches Database.sample_sound "id:01 tag:Dog").2.1 (by cbv) _
    (search_answered Database.sample_sound fun hpresent => absurd htitle hpresent)
  intro value hvalue
  rw [hids, List.mem_singleton] at hvalue
  subst hvalue
  exact ⟨1, by cbv⟩

end ComicCatalog
