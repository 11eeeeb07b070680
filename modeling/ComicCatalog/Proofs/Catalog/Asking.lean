import ComicCatalog.Catalog.Listing
import ComicCatalog.Catalog.Search
import ComicCatalog.Proofs.Catalog.Listing
import ComicCatalog.Proofs.Lookup.Courses

/-! # What the catalog asks

A query asks for the names that equal one of its facet values and for the works with its
title phrase. All else that is looked up stands in bounded lists of values, and so every
membership condition is bounded. The one exception is the first select of a listing, which
asks for all languages of the request at once.
-/

namespace ComicCatalog

open Lookup

/-! ## Bounded lists -/

namespace Select

/-- No membership condition has too many values. -/
def IsBounded (select : Select) : Prop :=
  ∀ condition ∈ select.conditions, ∀ values, condition.test = .oneOf values →
    values.length ≤ maxAmong

/-- The one condition is a membership in a bounded list of values. -/
def IsAmong (select : Select) : Prop :=
  ∃ column values, select.conditions = [.oneOf column values] ∧ values.length ≤ maxAmong

theorem IsAmong.isBounded {select : Select} (hselect : select.IsAmong) : select.IsBounded := by
  obtain ⟨column, values, hconditions, hlength⟩ := hselect
  intro condition hcondition others htest
  rw [hconditions, List.mem_singleton] at hcondition
  rw [hcondition] at htest
  cases htest
  exact hlength

/-- Selects without a membership condition are bounded. -/
theorem isBounded_of_single {select : Select} {condition : Condition}
    (hconditions : select.conditions = [condition]) (htest : ∀ values, condition.test ≠ .oneOf values) :
    select.IsBounded := by
  intro other hother values hvalues
  rw [hconditions, List.mem_singleton] at hother
  exact absurd (hother ▸ hvalues) (htest values)

end Select

namespace Lookup

theorem asksOnly_isAmong {select : Select} (hplain : select.conditions = []) (column : String)
    (values : List String) : AsksOnly Select.IsAmong (among select column values) := by
  apply (asksOnly_among select column values).mono
  rintro asked ⟨piece, hlength, rfl⟩
  exact ⟨column, piece, by simp [Select.filtered, hplain], hlength⟩

end Lookup

/-! ## Names and works -/

namespace Facet

variable (facet : Facet)

theorem asksOnly_worksLinkedTo (names : List Ident) :
    AsksOnly Select.IsAmong (facet.worksLinkedTo names) := by
  apply (asksOnly_isAmong rfl _ _).bind
  intro links
  apply AsksOnly.pure

theorem asksOnly_namesByWork (works : List String) :
    AsksOnly Select.IsAmong (facet.namesByWork works) := by
  apply (asksOnly_isAmong rfl _ _).bind
  intro links
  apply (asksOnly_isAmong rfl _ _).bind
  intro names
  apply AsksOnly.pure

end Facet

theorem asksOnly_annotate (rows : List Record) : AsksOnly Select.IsAmong (annotate rows) := by
  unfold annotate
  split
  · exact AsksOnly.pure []
  · apply (Facet.tag.asksOnly_namesByWork _).bind
    intro tags
    apply (Facet.artist.asksOnly_namesByWork _).bind
    intro artists
    apply AsksOnly.pure

/-! ## Queries -/

/-- What may be asked for the values of a field. -/
inductive Field.Asks : Field → List String → Select → Prop
  | name {facet : Facet} {values : List String} {value : String} (hvalue : value ∈ values) :
      Asks (.facet facet) values (facet.nameSelect value)
  | title {values : List String} (phrase : String) : Asks .title values (titleSelect phrase)
  | among {field : Field} {values : List String} {select : Select} (hselect : select.IsAmong) :
      Asks field values select

theorem Field.Asks.isBounded {field : Field} {values : List String} {select : Select}
    (hasks : field.Asks values select) : select.IsBounded := by
  cases hasks with
  | name => exact Select.isBounded_of_single rfl nofun
  | title => exact Select.isBounded_of_single rfl nofun
  | among hselect => exact hselect.isBounded

namespace Facet

variable (facet : Facet)

theorem asksOnly_setsOf (values : List String) :
    AsksOnly (Field.Asks (.facet facet) values) (facet.setsOf values) := by
  induction values with
  | nil => exact AsksOnly.pure _
  | cons value rest ih =>
      apply (AsksOnly.fetch (.name List.mem_cons_self)).bind
      intro names
      cases identsIn "id" names with
      | nil =>
          apply (AsksOnly.tick _).bind
          intro _
          apply AsksOnly.pure
      | cons ident idents =>
          apply ((facet.asksOnly_worksLinkedTo (ident :: idents)).mono fun _ => .among).bind
          intro works
          apply AsksOnly.bind
          · apply ih.mono
            intro select hselect
            cases hselect with
            | name hvalue => exact .name (List.mem_cons_of_mem value hvalue)
            | among hamong => exact .among hamong
          · intro sets
            apply AsksOnly.pure

theorem asksOnly_candidates (values : List String) :
    AsksOnly (Field.Asks (.facet facet) values) (facet.candidates values) := by
  apply (facet.asksOnly_setsOf values).bind
  intro sets
  cases sets with
  | none => exact AsksOnly.pure _
  | some sets => exact AsksOnly.pure _

end Facet

theorem Field.asksOnly_candidates (field : Field) (values : List String) :
    AsksOnly (field.Asks values) (field.candidates values) := by
  unfold Field.candidates
  split
  · exact AsksOnly.pure none
  · cases field with
    | facet kind => exact (kind.asksOnly_candidates values).mapError SearchError.store
    | title =>
        apply AsksOnly.mapError
        apply AsksOnly.map
        apply (AsksOnly.fetch (.title _)).bind
        intro rows
        apply AsksOnly.pure
    | id => exact AsksOnly.pure _

namespace Criteria

variable (criteria : Criteria)

/-- What may be asked for one of the fields. -/
def Asks (select : Select) : Prop :=
  ∃ field : Field, field.Asks (criteria.values field) select

theorem asksOnly_candidatesOf (fields : List Field) :
    AsksOnly criteria.Asks (criteria.candidatesOf fields) := by
  induction fields with
  | nil => exact AsksOnly.pure []
  | cons field rest ih =>
      apply ((field.asksOnly_candidates _).mono fun _ hasks => ⟨field, hasks⟩).bind
      intro first
      apply ih.bind
      intro others
      apply AsksOnly.pure

theorem asksOnly_works : AsksOnly criteria.Asks criteria.works := by
  apply (criteria.asksOnly_candidatesOf Field.all).bind
  intro sets
  cases Candidates.meetPresent sets with
  | none => exact AsksOnly.pure []
  | some set => exact AsksOnly.pure set.ids

theorem Asks.isBounded {criteria : Criteria} {select : Select} (hasks : criteria.Asks select) :
    select.IsBounded := by
  obtain ⟨field, hasks⟩ := hasks
  exact hasks.isBounded

end Criteria

/-! ## Searches and listings -/

namespace Search

theorem asksOnly_entriesOf (works : List Ident) : AsksOnly Select.IsAmong (entriesOf works) := by
  apply AsksOnly.bind (asksOnly_isAmong rfl _ _)
  intro rows
  exact asksOnly_annotate rows

/-- The works that a query resolves to are looked up in bounded lists. -/
theorem asksOnly_shown (works : List Ident) :
    AsksOnly Select.IsAmong (match works with
      | [] => pure (some [])
      | works => some <$> (entriesOf works).mapError .store : Lookup CatalogError _) := by
  cases works with
  | nil => exact AsksOnly.pure _
  | cons work rest => exact ((asksOnly_entriesOf (work :: rest)).mapError CatalogError.store).map some

theorem asksOnly_entries? (query : String) :
    AsksOnly (Criteria.ofQuery query).Asks (entries? query) := by
  unfold entries?
  extract_lets criteria
  split
  · exact AsksOnly.pure none
  · apply (criteria.asksOnly_works.mapError CatalogError.search).bind
    intro works
    apply (asksOnly_shown works).mono
    intro select hselect
    exact ⟨.id, .among hselect⟩

end Search

namespace ListingRequest

variable (request : ListingRequest) (pageSize : Nat)

theorem isBounded_select_iff :
    (request.select pageSize).IsBounded ↔ request.languages.length ≤ maxAmong := by
  unfold Select.IsBounded
  rw [conditions_select]
  split
  next hnone => simp [hnone]
  next => simp [Condition.oneOfFolded]

/-- A listing asks its own select first, and all others in bounded lists. -/
theorem asked_entries {σ : Type} (responder : Responder σ) (state : σ) :
    ∃ rest, ((request.entries pageSize).run responder state).asked =
        request.select pageSize :: rest ∧ ∀ select ∈ rest, select.IsAmong := by
  have hrest : ∀ rows, AsksOnly Select.IsAmong (do
      let entries ← annotate rows
      pure (request.arrange entries)) := by
    intro rows
    apply (asksOnly_annotate rows).bind
    intro entries
    apply AsksOnly.pure
  rw [entries, run_mapError]
  change ∃ rest, ((Lookup.ask (request.select pageSize) id fun rows => do
    let entries ← annotate rows
    pure (request.arrange entries)).run responder state).asked = _ ∧ _
  rcases hanswer : responder (request.select pageSize) state with ⟨failure | rows, after⟩
  · rw [run_ask_refused hanswer]
    exact ⟨[], rfl, fun _ hselect => absurd hselect List.not_mem_nil⟩
  · rw [run_ask_answered hanswer]
    exact ⟨_, rfl, (hrest rows).asked responder after⟩

end ListingRequest

/-- Whatever the catalog is asked and whoever answers it, no membership condition has too
many values, except where a listing is asked for too many languages: its first select
carries all of them, and no other select does. -/
theorem membership_lists_bounded {σ : Type} (responder : Responder σ) (state : σ) :
    (∀ (field : Field) (values : List String),
      ∀ select ∈ ((field.candidates values).run responder state).asked, select.IsBounded) ∧
    (∀ criteria : Criteria,
      ∀ select ∈ (criteria.works.run responder state).asked, select.IsBounded) ∧
    (∀ query : String,
      ∀ select ∈ (search responder query state).asked, select.IsBounded) ∧
    (∀ (facet : Facet) (works : List String),
      ∀ select ∈ ((facet.namesByWork works).run responder state).asked, select.IsBounded) ∧
    (∀ rows : List Record,
      ∀ select ∈ ((annotate rows).run responder state).asked, select.IsBounded) ∧
    ∀ (request : ListingRequest) (pageSize : Nat),
      ((∀ select ∈ ((request.entries pageSize).run responder state).asked, select.IsBounded) ↔
        request.languages.length ≤ maxAmong) ∧
      ∀ select ∈ ((request.entries pageSize).run responder state).asked.tail, select.IsBounded := by
  refine ⟨?_, ?_, ?_, ?_, ?_, ?_⟩
  · intro field values select hselect
    exact ((field.asksOnly_candidates values).asked responder state select hselect).isBounded
  · intro criteria select hselect
    exact (criteria.asksOnly_works.asked responder state select hselect).isBounded
  · intro query select hselect
    exact ((Search.asksOnly_entries? query).asked responder state select hselect).isBounded
  · intro facet works select hselect
    exact ((facet.asksOnly_namesByWork works).asked responder state select hselect).isBounded
  · intro rows select hselect
    exact ((asksOnly_annotate rows).asked responder state select hselect).isBounded
  · intro request pageSize
    -- Only the first select of a listing carries the languages; the names are asked for in pieces.
    obtain ⟨rest, hasked, hrest⟩ := request.asked_entries pageSize responder state
    have hbounded : ∀ select ∈ rest, select.IsBounded := fun select hselect =>
      (hrest select hselect).isBounded
    rw [hasked, List.forall_mem_cons, request.isBounded_select_iff]
    exact ⟨and_iff_left hbounded, hbounded⟩

end ComicCatalog
