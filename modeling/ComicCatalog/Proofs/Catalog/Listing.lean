import ComicCatalog.Catalog.Listing
import ComicCatalog.Proofs.Catalog.Annotation

/-! # What a listing shows

A listing asks for all columns of the works. What it shows are stored works, in whatever
order, each with the names that its links point at.
-/

namespace ComicCatalog

open Lookup

variable {db : Database}

namespace ListingRequest

/-- The listing is ordered by a column of the works, by artists, or not at all. -/
def IsOrderable (request : ListingRequest) : Prop :=
  ∀ name, request.sortKey = some (.column name) →
    isIdentifier name = true ∧ (Table.works.slot? name).isSome = true

theorem perm_arrange (request : ListingRequest) (entries : List Entry) :
    (request.arrange entries).Perm entries := by
  unfold arrange
  split
  · exact List.mergeSort_perm _ _
  · exact List.Perm.refl _

theorem arrange_of_ne {request : ListingRequest} (hkey : request.sortKey ≠ some .artist)
    (entries : List Entry) : request.arrange entries = entries := by
  unfold arrange
  split
  next hartist => exact absurd hartist hkey
  next => rfl

theorem asks_select {request : ListingRequest} (horderable : request.IsOrderable)
    (hfew : request.languages.length ≤ Statement.maxValues) (pageSize : Nat) :
    (request.select pageSize).Asks .works := by
  have hname : isIdentifier "manga" = true := by decide
  have hlanguage : isIdentifier "language" = true ∧ (Table.works.slot? "language").isSome = true := by
    decide
  have hall : ((Select.all "manga").limited pageSize).Asks .works :=
    (Select.asks_all hname Table.named?_works).limited pageSize
  unfold select
  extract_lets limited narrowed
  have hnarrowed : narrowed.Asks .works := by
    unfold narrowed
    split
    · exact hall
    · exact hall.filtered (Select.fitsStatement_filtered rfl hfew) hlanguage.1 hlanguage.2
  split
  next name hkey =>
    obtain ⟨hidentifier, hslot⟩ := horderable name hkey
    exact hnarrowed.ordered request.direction hidentifier hslot
  next => exact hnarrowed

theorem asked_select (request : ListingRequest) (pageSize : Nat) :
    Database.asked .works (request.select pageSize) = Table.works.slots := by
  unfold select
  split <;> split <;> rfl

theorem table_select (request : ListingRequest) (pageSize : Nat) :
    (request.select pageSize).table = "manga" := by
  unfold select
  split <;> split <;> rfl

theorem order_select (request : ListingRequest) (pageSize : Nat) :
    (request.select pageSize).order =
      match request.sortKey with
      | some (.column name) => some ⟨name, request.direction⟩
      | _ => none := by
  rcases hkey : request.sortKey with _ | name | _
  all_goals
    simp only [select, hkey]
    split <;> rfl

theorem limit_select (request : ListingRequest) (pageSize : Nat) :
    (request.select pageSize).limit = some pageSize := by
  unfold select
  split <;> split <;> rfl

theorem conditions_select (request : ListingRequest) (pageSize : Nat) :
    (request.select pageSize).conditions =
      if request.languages = [] then [] else [.oneOfFolded "language" request.languages] := by
  unfold select
  simp only [List.isEmpty_iff]
  split <;> split <;> rfl

/-- A listing looks up no column as it is. -/
theorem folds_select (request : ListingRequest) (pageSize : Nat) :
    (request.select pageSize).conditions.all Condition.folds = true := by
  rw [conditions_select]
  split <;> rfl

/-- A listing whose select is answered with works shows each of them. -/
theorem resultOn_entries (hsound : db.Sound) {request : ListingRequest} {pageSize : Nat}
    {works : List Row} (hrows : ∀ work ∈ works, work ∈ db.rows .works) (hnodup : works.Nodup)
    (hanswer : db.answer (request.select pageSize) =
      .ok (works.map (Database.record .works Table.works.slots))) :
    (request.entries pageSize).resultOn db = .ok (request.arrange (works.map db.entry)) := by
  have hwords : ∀ work ∈ works, Word.isSigned work.key = true := fun work hwork =>
    hsound.keys_isSigned _ work (hrows work hwork)
  have hkeys : (works.map Row.key).Nodup := hsound.nodup_keys hnodup hrows
  have hfetched := (resultOn_fetch (request.select pageSize)).trans hanswer
  rw [entries, resultOn_mapError, resultOn_bind_of_ok hfetched,
    resultOn_bind_of_ok (resultOn_annotate hsound hwords hkeys)]
  rfl

/-- The works that a listing shows, and what it shows of them. -/
theorem listed_works (hsound : db.Sound) {request : ListingRequest} {pageSize : Nat}
    {entries : List Entry}
    (hlisted : ((request.entries pageSize).run Source.respond (.database db)).result = .ok entries) :
    ∃ works : List Row, works.Subperm (db.rows .works) ∧ entries.Perm (works.map db.entry) := by
  rw [(run_database db _).1] at hlisted
  have hfetched := hlisted
  rw [ListingRequest.entries, resultOn_mapError_eq_ok, resultOn_bind_eq_ok] at hfetched
  obtain ⟨shown, hshown, -⟩ := hfetched
  rw [resultOn_fetch] at hshown
  have htable : Table.named? (request.select pageSize).table = some .works := by
    rw [table_select, Table.named?_works]
  obtain ⟨works, hworks, rfl⟩ := Database.rows_of_answer htable hshown
  rw [asked_select] at hshown
  have hnodup : works.Nodup := by
    obtain ⟨kept, hperm, hsublist⟩ := hworks
    exact hperm.nodup_iff.mp ((hsound.nodup_rows _).sublist hsublist)
  have hresult := resultOn_entries hsound (fun work hwork => hworks.subset hwork) hnodup hshown
  rw [hlisted, Except.ok.injEq] at hresult
  rw [hresult]
  exact ⟨works, hworks, request.perm_arrange _⟩

end ListingRequest

end ComicCatalog
