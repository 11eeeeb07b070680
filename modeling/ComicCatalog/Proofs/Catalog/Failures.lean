import ComicCatalog.Catalog.Listing
import ComicCatalog.Catalog.Search
import ComicCatalog.Proofs.Lookup.Failures

/-! # Failures of the catalog

No operation of the catalog goes on after a refused select, and none makes up a failure of
its own. A refusal that is met while a query is resolved is a failure of the search; any
other stays a failure of the store.
-/

namespace ComicCatalog

open Lookup

/-! ## Names and works -/

namespace Facet

variable (facet : Facet)

theorem wraps_worksLinkedTo (names : List Ident) :
    Wraps (fun failure error => error = failure) (facet.worksLinkedTo names) := by
  apply (Wraps.among _ _ _).bind
  intro links
  apply Wraps.pure

theorem wraps_setsOf (values : List String) :
    Wraps (fun failure error => error = failure) (facet.setsOf values) := by
  induction values with
  | nil => exact Wraps.pure _
  | cons value rest ih =>
      apply (Wraps.fetch _).bind
      intro names
      cases identsIn "id" names with
      | nil =>
          apply (Wraps.tick _).bind
          intro _
          apply Wraps.pure
      | cons ident idents =>
          apply (facet.wraps_worksLinkedTo (ident :: idents)).bind
          intro works
          apply ih.bind
          intro sets
          apply Wraps.pure

theorem wraps_candidates (values : List String) :
    Wraps (fun failure error => error = failure) (facet.candidates values) := by
  apply (facet.wraps_setsOf values).bind
  intro sets
  cases sets with
  | none => exact Wraps.pure _
  | some sets => exact Wraps.pure _

theorem wraps_namesByWork (works : List String) :
    Wraps (fun failure error => error = failure) (facet.namesByWork works) := by
  apply (Wraps.among _ _ _).bind
  intro links
  apply (Wraps.among _ _ _).bind
  intro names
  apply Wraps.pure

end Facet

theorem wraps_titleCandidates (values : List String) :
    Wraps (fun failure error => error = failure) (titleCandidates values) := by
  apply (Wraps.fetch _).bind
  intro rows
  apply Wraps.pure

theorem wraps_annotate (rows : List Record) :
    Wraps (fun failure error => error = failure) (annotate rows) := by
  unfold annotate
  split
  · exact Wraps.pure []
  · apply (Facet.tag.wraps_namesByWork _).bind
    intro tags
    apply (Facet.artist.wraps_namesByWork _).bind
    intro artists
    apply Wraps.pure

/-! ## Queries -/

theorem Field.wraps_candidates (field : Field) (values : List String) :
    Wraps (fun failure error => error = SearchError.store failure) (field.candidates values) := by
  unfold Field.candidates
  split
  · exact Wraps.pure none
  · cases field with
    | facet kind => exact (kind.wraps_candidates values).readAs SearchError.store
    | title => exact ((wraps_titleCandidates values).map some).readAs SearchError.store
    | id => exact Wraps.pure _

namespace Criteria

variable (criteria : Criteria)

theorem wraps_candidatesOf (fields : List Field) :
    Wraps (fun failure error => error = SearchError.store failure) (criteria.candidatesOf fields) := by
  induction fields with
  | nil => exact Wraps.pure []
  | cons field rest ih =>
      apply (field.wraps_candidates _).bind
      intro first
      apply ih.bind
      intro others
      apply Wraps.pure

theorem wraps_works :
    Wraps (fun failure error => error = SearchError.store failure) criteria.works := by
  apply (criteria.wraps_candidatesOf Field.all).bind
  intro sets
  cases Candidates.meetPresent sets with
  | none => exact Wraps.pure []
  | some set => exact Wraps.pure set.ids

end Criteria

/-! ## Listings and searches -/

theorem ListingRequest.wraps_entries (request : ListingRequest) (pageSize : Nat) :
    Wraps (fun failure error => error = CatalogError.store failure) (request.entries pageSize) := by
  apply Wraps.readAs
  apply (Wraps.fetch _).bind
  intro rows
  apply (wraps_annotate rows).bind
  intro entries
  apply Wraps.pure

namespace Search

theorem wraps_entriesOf (works : List Ident) :
    Wraps (fun failure error => error = failure) (entriesOf works) := by
  apply Wraps.bind (Wraps.among _ _ _)
  intro rows
  exact wraps_annotate rows

/-- What a search makes of a refused select. -/
def Tells (failure : StoreError) (error : CatalogError) : Prop :=
  error = .search (.store failure) ∨ error = .store failure

/-- The works that a query resolves to are shown without another failure of the search. -/
theorem wraps_shown (works : List Ident) :
    Wraps (fun failure error => error = CatalogError.store failure)
      (match works with
      | [] => pure (some [])
      | works => some <$> (entriesOf works).mapError .store : Lookup CatalogError _) := by
  cases works with
  | nil => exact Wraps.pure _
  | cons work rest => exact ((wraps_entriesOf (work :: rest)).readAs CatalogError.store).map some

theorem wraps_entries? (query : String) : Wraps Tells (entries? query) := by
  unfold entries?
  extract_lets criteria
  split
  · exact Wraps.pure none
  · apply (criteria.wraps_works.mapError _).bind
    · intro works
      apply (wraps_shown works).mono
      intro failure error herror
      exact Or.inr herror
    · rintro failure error rfl
      exact Or.inl rfl

end Search

variable {σ : Type} {responder : Responder σ} {query : String} {state : σ}

theorem search_eq_error {error : CatalogError} :
    (search responder query state).result = .error error ↔
      ((Search.entries? query).run responder state).result = .error error := by
  show ((Search.entries? query).run responder state).result.map _ = _ ↔ _
  cases ((Search.entries? query).run responder state).result <;> simp [Except.map]

theorem stopsAtFailure_search (query : String) :
    StopsAtFailure (fun _ responder state => search responder query state) Search.Tells :=
  (Search.wraps_entries? query).stopsAtFailure.after (fun found => found.getD [])
    (fun _ run =>
      { result := run.result.map fun found => found.getD []
        asked := run.asked
        counted := run.counted ++ [.search (Search.outcome run.result)]
        state := run.state })
    (fun _ _ => rfl) fun _ _ => rfl

theorem Criteria.run_works_of_isEmpty {criteria : Criteria} (hempty : criteria.isEmpty = true) :
    criteria.works.run responder state = ⟨.ok [], [], [], state⟩ := by
  obtain ⟨entries⟩ := criteria
  obtain rfl : entries = [] := List.isEmpty_iff.mp hempty
  rfl

/-- A search fails as a search while it resolves its query. -/
theorem search_of_unresolved {failure : StoreError}
    (hworks : ((Criteria.ofQuery query).works.run responder state).result = .error (.store failure)) :
    (search responder query state).result = .error (.search (.store failure)) ∧
      (search responder query state).asked =
        ((Criteria.ofQuery query).works.run responder state).asked := by
  have hpresent : (Criteria.ofQuery query).isEmpty = false := by
    by_contra hempty
    rw [Bool.not_eq_false] at hempty
    rw [Criteria.run_works_of_isEmpty hempty] at hworks
    cases hworks
  have hwrapped : (((Criteria.ofQuery query).works.mapError CatalogError.search).run responder
      state).result = .error (.search (.store failure)) := by
    rw [run_mapError, hworks]
    rfl
  rw [search_eq_error]
  show _ ∧ ((Search.entries? query).run responder state).asked = _
  unfold Search.entries?
  simp only [hpresent, Bool.false_eq_true, if_false]
  obtain ⟨hresult, hasked⟩ := run_bind_of_error hwrapped _
  exact ⟨hresult, by rw [hasked, run_mapError]⟩

/-- Once its query is resolved, a search fails as the store does. -/
theorem search_of_resolved {works : List Ident}
    (hworks : ((Criteria.ofQuery query).works.run responder state).result = .ok works)
    {error : CatalogError} (herror : (search responder query state).result = .error error) :
    ∃ failure, error = .store failure := by
  have hwrapped : (((Criteria.ofQuery query).works.mapError CatalogError.search).run responder
      state).result = .ok works := by
    rw [run_mapError, hworks]
    rfl
  rw [search_eq_error] at herror
  unfold Search.entries? at herror
  extract_lets criteria at herror
  split at herror
  · cases herror
  rw [run_bind_of_ok hwrapped] at herror
  obtain ⟨-, failure, -, htells⟩ := (Search.wraps_shown works).stopsAtFailure.refused_last _ _ _ herror
  exact ⟨failure, htells⟩

/-- Every operation of the catalog stops at the first select that is refused and hands the
refusal on: as a failure of the search while a query is resolved, and as the store's own
everywhere else. -/
theorem catalog_stops_at_failure :
    (∀ (field : Field) (values : List String),
      StopsAtFailure (field.candidates values).operation
        fun failure error => error = SearchError.store failure) ∧
    (∀ criteria : Criteria, StopsAtFailure criteria.works.operation
      fun failure error => error = SearchError.store failure) ∧
    (∀ (facet : Facet) (works : List String),
      StopsAtFailure (facet.namesByWork works).operation fun failure error => error = failure) ∧
    (∀ rows : List Record,
      StopsAtFailure (annotate rows).operation fun failure error => error = failure) ∧
    (∀ (request : ListingRequest) (pageSize : Nat),
      StopsAtFailure (request.entries pageSize).operation
        fun failure error => error = CatalogError.store failure) ∧
    (∀ query : String, StopsAtFailure (fun _ responder state => search responder query state)
      fun failure error => error = .search (.store failure) ∨ error = .store failure) ∧
    (∀ (query : String) (σ : Type) (responder : Responder σ) (state : σ),
      (∀ failure,
        ((Criteria.ofQuery query).works.run responder state).result = .error (.store failure) →
          (search responder query state).result = .error (.search (.store failure)) ∧
          (search responder query state).asked =
            ((Criteria.ofQuery query).works.run responder state).asked) ∧
      ∀ works error, ((Criteria.ofQuery query).works.run responder state).result = .ok works →
        (search responder query state).result = .error error →
          ∃ failure, error = .store failure) := by
  refine ⟨?_, ?_, ?_, ?_, ?_, stopsAtFailure_search, ?_⟩
  · intro field values
    exact (field.wraps_candidates values).stopsAtFailure
  · intro criteria
    exact criteria.wraps_works.stopsAtFailure
  · intro facet works
    exact (facet.wraps_namesByWork works).stopsAtFailure
  · intro rows
    exact (wraps_annotate rows).stopsAtFailure
  · intro request pageSize
    exact (request.wraps_entries pageSize).stopsAtFailure
  · intro query σ responder state
    refine ⟨fun failure hworks => search_of_unresolved hworks, ?_⟩
    intro works error hworks herror
    exact search_of_resolved hworks herror

end ComicCatalog
