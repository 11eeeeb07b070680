import ComicCatalog.Proofs.Catalog.Paging
import ComicCatalog.Proofs.Catalog.Semantics
import ComicCatalog.Proofs.Query.Writing
import ComicCatalog.Proofs.Store.Integrity

/-! # Filtering by what is shown

A search for a tag goes from its name to links and works; an entry is annotated from its
work over links to names. Both pass the same links, so a search for tags or artists finds
the entries that show them. The ways part only at a link that is no row number: a
floating-point number equals a row number when links are searched for it, but it points
at no name when names are attached. Such links cannot be stored where links are enforced.
-/

namespace ComicCatalog

/-- The names of a facet that an entry shows. Only tags and artists are shown. -/
def Entry.namesOf (entry : Entry) : Facet → List String
  | .tag => entry.tags
  | .artist => entry.artists
  | _ => []

namespace Database

variable {db : Database}

theorem not_misfiled (hlinks : db.LinksRows) (facet : Facet) (folded : String) (work : Row) :
    ¬ db.Misfiled facet folded work := by
  rintro ⟨name, -, -, link, hlink, -, x, hx⟩
  obtain ⟨-, n, -, hn⟩ := hlinks facet link hlink
  rw [hn] at hx
  cases hx

theorem namesOf_entry {facet : Facet} (hfacet : facet = .tag ∨ facet = .artist) (work : Row) :
    (db.entry work).namesOf facet = db.shownNames facet work := by
  rcases hfacet with rfl | rfl <;> rfl

/-- A query of quotations for a facet asks nothing of other fields. -/
theorem values_of_ne_quoted {facet : Facet} {values : List String}
    (hquotable : ∀ value ∈ values, Criteria.IsQuotable value) {other : Field}
    (hother : other ≠ .facet facet) :
    (Criteria.ofQuery (Criteria.quoted (.facet facet) values)).values other = [] := by
  rw [Criteria.values_ofQuery_quoted hquotable, if_neg hother]

theorem mem_values_quoted {facet : Facet} {values : List String}
    (hquotable : ∀ value ∈ values, Criteria.IsQuotable value) {folded : String} :
    folded ∈ (Criteria.ofQuery (Criteria.quoted (.facet facet) values)).values (.facet facet) ↔
      ∃ value ∈ values, Text.trim value ≠ "" ∧ Text.fold (Text.trim value) = folded := by
  rw [Criteria.values_ofQuery_quoted hquotable, if_pos rfl]
  simp only [List.mem_filter, List.mem_map, Bool.not_eq_true', String.isEmpty_eq_false_iff]
  constructor
  · rintro ⟨⟨value, hvalue, rfl⟩, hne⟩
    exact ⟨value, hvalue, fun htrim => hne (Text.fold_eq_empty.mpr htrim), rfl⟩
  · rintro ⟨value, hvalue, htrim, rfl⟩
    exact ⟨⟨value, hvalue, rfl⟩, fun hempty => htrim (Text.fold_eq_empty.mp hempty)⟩

/-- A query of quotations for a facet yields the works that are tied to all of them. -/
theorem yields_quoted_iff (hsound : db.Sound) {facet : Facet} {values : List String}
    (hquotable : ∀ value ∈ values, Criteria.IsQuotable value)
    (hsome : ∃ value ∈ values, Text.trim value ≠ "") {work : Row} (hwork : work ∈ db.rows .works) :
    db.Yields (Criteria.ofQuery (Criteria.quoted (.facet facet) values)) work ↔
      ∀ value ∈ values, Text.trim value ≠ "" → db.Tied facet (Text.fold (Text.trim value)) work := by
  have hpresent := @Criteria.isEmpty_ofQuery_quoted (.facet facet) values hquotable hsome
  have hids : ∀ value ∈ (Criteria.ofQuery (Criteria.quoted (.facet facet) values)).values .id,
      ∃ n, Ident.Spells value n := by
    intro value hvalue
    rw [values_of_ne_quoted hquotable (by simp)] at hvalue
    cases hvalue
  rw [yields_iff_matches hsound hpresent hwork hids]
  constructor
  · intro hmatches value hvalue htrim
    exact hmatches.facets facet _ ((mem_values_quoted hquotable).mpr ⟨value, hvalue, htrim, rfl⟩)
  · intro htied
    refine ⟨?_, ?_, ?_⟩
    · intro kind folded hfolded
      by_cases hkind : kind = facet
      · subst hkind
        obtain ⟨value, hvalue, htrim, rfl⟩ := (mem_values_quoted hquotable).mp hfolded
        exact htied value hvalue htrim
      · rw [values_of_ne_quoted hquotable (by simpa using hkind)] at hfolded
        cases hfolded
    · intro htitle
      exact absurd (values_of_ne_quoted hquotable (by simp)) htitle
    · intro value hvalue
      rw [values_of_ne_quoted hquotable (by simp)] at hvalue
      cases hvalue

end Database

variable {db : Database}

/-- A search for quoted tags or artists finds the entries of a full listing that show
them, however the listing is ordered, and those that a misfiled link ties to a name. There
are no such links where links are enforced. -/
theorem quoted_search_agrees_with_listing (hdb : db.Reachable) {facet : Facet}
    (hfacet : facet = .tag ∨ facet = .artist) {values : List String}
    (hquotable : ∀ value ∈ values, Criteria.IsQuotable value)
    (hsome : ∃ value ∈ values, Text.trim value ≠ "") {request : ListingRequest}
    (hlanguages : request.languages = []) (horderable : request.IsOrderable) {pageSize : Nat}
    (hpage : (db.rows .works).length ≤ pageSize) :
    ∃ found listed : List Entry,
      (search Source.respond (Criteria.quoted (.facet facet) values) (.database db)).result =
        .ok found ∧
      ((request.entries pageSize).run Source.respond (.database db)).result = .ok listed ∧
      (∀ entry, entry ∈ found ↔ entry ∈ listed ∧ ∃ work ∈ db.rows .works, entry = db.entry work ∧
        ∀ value ∈ values, Text.trim value ≠ "" →
          (∃ name ∈ entry.namesOf facet, Text.fold name = Text.fold (Text.trim value)) ∨
            db.Misfiled facet (Text.fold (Text.trim value)) work) ∧
      (db.enforcesLinks = true ∨ db.LinksRows → ∀ entry, entry ∈ found ↔ entry ∈ listed ∧
        ∀ value ∈ values, Text.trim value ≠ "" →
          ∃ name ∈ entry.namesOf facet, Text.fold name = Text.fold (Text.trim value)) := by
  have hsound := hdb.sound
  obtain ⟨listed, hlisted, hperm⟩ := ListingRequest.exists_listed hsound hlanguages horderable hpage
  have hshort : (Criteria.ofQuery (Criteria.quoted (.facet facet) values)).HasShortPhrase := by
    intro htitle
    exact absurd (Database.values_of_ne_quoted hquotable (by simp)) htitle
  obtain ⟨found, hfound⟩ := exists_search_result (search_answered hsound hshort)
  obtain ⟨works, -, hmem, rfl⟩ := search_works hsound hfound
  have hpresent := @Criteria.isEmpty_ofQuery_quoted (.facet facet) values hquotable hsome
  -- A search goes by the rows that are tied, a listing by the names that are shown.
  have hyields : ∀ work ∈ db.rows .works,
      (db.Yields (Criteria.ofQuery (Criteria.quoted (.facet facet) values)) work ↔
        ∀ value ∈ values, Text.trim value ≠ "" →
          (∃ name ∈ (db.entry work).namesOf facet, Text.fold name = Text.fold (Text.trim value)) ∨
            db.Misfiled facet (Text.fold (Text.trim value)) work) := by
    intro work hwork
    rw [Database.yields_quoted_iff hsound hquotable hsome hwork]
    simp only [Database.tied_iff_shown hsound, Text.fold_fold, Database.namesOf_entry hfacet]
  have hexact : ∀ entry, entry ∈ works.map db.entry ↔ entry ∈ listed ∧
      ∃ work ∈ db.rows .works, entry = db.entry work ∧ ∀ value ∈ values, Text.trim value ≠ "" →
        (∃ name ∈ entry.namesOf facet, Text.fold name = Text.fold (Text.trim value)) ∨
          db.Misfiled facet (Text.fold (Text.trim value)) work := by
    intro entry
    rw [hperm.mem_iff, List.mem_map]
    constructor
    · rintro ⟨work, hwork, rfl⟩
      obtain ⟨hrow, -, hwork⟩ := (hmem work).mp hwork
      exact ⟨List.mem_map_of_mem hrow, work, hrow, rfl, (hyields work hrow).mp hwork⟩
    · rintro ⟨-, work, hrow, rfl, hshown⟩
      exact ⟨work, (hmem work).mpr ⟨hrow, hpresent, (hyields work hrow).mpr hshown⟩, rfl⟩
  refine ⟨works.map db.entry, listed, hfound, hlisted, hexact, ?_⟩
  intro hlinks entry
  -- Where links tie rows, no work is misfiled.
  have hrows : db.LinksRows := hlinks.elim hdb.linksRows id
  rw [hexact]
  apply and_congr_right
  intro hentry
  constructor
  · rintro ⟨work, -, rfl, hshown⟩ value hvalue htrim
    exact (hshown value hvalue htrim).resolve_right (Database.not_misfiled hrows facet _ work)
  · intro hshown
    obtain ⟨work, hrow, rfl⟩ := List.mem_map.mp (hperm.mem_iff.mp hentry)
    exact ⟨work, hrow, rfl, fun value hvalue htrim => Or.inl (hshown value hvalue htrim)⟩

/-- A work and its one tag, as three insertions leave them. -/
def Database.tagged : Database where
  contents := [
    (.links .tag, [⟨1, [.integer 5, .integer 1]⟩]),
    (.names .tag, [⟨1, [.ofText "Dog"]⟩]),
    (.works, [⟨5, [.ofText "x", .null, .null, .integer 0, .null, .null]⟩])]
  enforcesLinks := true

theorem Database.tagged_reachable : Database.tagged.Reachable := by
  have hwork : (Database.empty true).insert "manga" ["id", "title"] [.integer 5, .ofText "x"] =
      .ok ⟨tagged.contents.drop 2, true⟩ := by rfl
  have hname : (Database.mk (tagged.contents.drop 2) true).insert "tags" ["name"] [.ofText "Dog"] =
      .ok ⟨tagged.contents.drop 1, true⟩ := by rfl
  have hlink : (Database.mk (tagged.contents.drop 1) true).insert "manga_tags" ["manga_id", "tag_id"]
      [.integer 5, .integer 1] = .ok tagged := by rfl
  refine .insert (.insert (.insert (.empty true) ?_ hwork) ?_ hname) ?_ hlink
  all_goals
    intro n hn
    simp only [Cell.ofText, List.mem_cons, Cell.integer.injEq, reduceCtorEq, List.not_mem_nil,
      or_false] at hn
  · subst hn
    decide
  · rcases hn with rfl | rfl <;> decide

theorem quoted_search_agrees_with_listing_tagged :
    ∃ found listed : List Entry,
      (search Source.respond (Criteria.quoted (.facet .tag) ["dOG ", " "])
        (.database .tagged)).result = .ok found ∧
      ((ListingRequest.entries ⟨none, .ascending, []⟩ 20).run Source.respond
        (.database .tagged)).result = .ok listed ∧
      ∀ entry, entry ∈ found ↔ entry ∈ listed ∧ ∀ value ∈ ["dOG ", " "], Text.trim value ≠ "" →
        ∃ name ∈ entry.tags, Text.fold name = Text.fold (Text.trim value) := by
  have hquotable : ∀ value ∈ ["dOG ", " "], Criteria.IsQuotable value := by decide
  have hsome : ∃ value ∈ ["dOG ", " "], Text.trim value ≠ "" := ⟨"dOG ", by decide, by decide⟩
  obtain ⟨found, listed, hfound, hlisted, -, hagree⟩ :=
    @quoted_search_agrees_with_listing .tagged Database.tagged_reachable .tag (Or.inl rfl) ["dOG ", " "]
      hquotable hsome ⟨none, .ascending, []⟩ rfl (by rintro name ⟨⟩) 20 (by decide)
  exact ⟨found, listed, hfound, hlisted, hagree (Or.inl rfl)⟩

end ComicCatalog
