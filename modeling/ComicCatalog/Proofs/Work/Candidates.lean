import ComicCatalog.Work.Candidates
import Mathlib.Data.List.Basic
import Mathlib.Data.String.Basic

/-! # Candidate sets as sets

A candidate set holds what it is made of, each identifier once, and the intersection
of candidate sets holds what all of them hold, however early it is cut short.
-/

namespace ComicCatalog.Candidates

/-- Every identifier occurs once. -/
def IsSet (set : Candidates) : Prop :=
  set.ids.Nodup

/-- The identifiers ascend by their texts. -/
def IsSorted (set : Candidates) : Prop :=
  set.ids.Pairwise fun a b => a.text < b.text

theorem IsSorted.isSet {set : Candidates} (hsorted : set.IsSorted) : set.IsSet :=
  hsorted.imp fun hlt heq => absurd (congrArg Ident.text heq) hlt.ne

/-- Sorted sets of the same identifiers are the same. -/
theorem IsSorted.eq_of_mem_iff {first second : Candidates} (hfirst : first.IsSorted)
    (hsecond : second.IsSorted) (hmem : ∀ id, id ∈ first.ids ↔ id ∈ second.ids) :
    first = second := by
  have hperm : first.ids.Perm second.ids :=
    (List.perm_ext_iff_of_nodup hfirst.isSet hsecond.isSet).mpr hmem
  have hids : first.ids = second.ids :=
    hperm.eq_of_pairwise (fun a b _ _ hab hba => absurd hba hab.asymm) hfirst hsecond
  exact congrArg Candidates.mk hids

/-! ## Sets of lists -/

theorem mem_dropRepeats {id : Ident} (ids : List Ident) : id ∈ dropRepeats ids ↔ id ∈ ids := by
  fun_induction dropRepeats ids with
  | case1 => rfl
  | case2 other => rfl
  | case3 rest other ih => simp [ih]
  | case4 first next rest hne ih => simp [ih]

theorem pairwise_dropRepeats {ids : List Ident} (hsorted : ids.Pairwise fun a b => a.text ≤ b.text) :
    (dropRepeats ids).Pairwise fun a b => a.text < b.text := by
  fun_induction dropRepeats ids with
  | case1 => exact List.Pairwise.nil
  | case2 other => exact List.pairwise_singleton _ _
  | case3 rest other ih => exact ih hsorted.of_cons
  | case4 first next rest hne ih =>
      obtain ⟨hfirst, hrest⟩ := List.pairwise_cons.mp hsorted
      refine List.pairwise_cons.mpr ⟨?_, ih hrest⟩
      have hlt : first.text < next.text := by
        refine lt_of_le_of_ne (hfirst next List.mem_cons_self) fun htext => hne ?_
        cases first
        cases next
        exact congrArg Ident.mk htext
      intro other hother
      rw [mem_dropRepeats] at hother
      rcases List.mem_cons.mp hother with rfl | hother
      · exact hlt
      · exact hlt.trans_le ((List.pairwise_cons.mp hrest).1 other hother)

@[simp]
theorem mem_ofList {id : Ident} {ids : List Ident} : id ∈ (ofList ids).ids ↔ id ∈ ids := by
  rw [ofList, mem_dropRepeats, List.mem_mergeSort]

theorem isSorted_ofList (ids : List Ident) : (ofList ids).IsSorted := by
  have htrans : ∀ a b c : Ident, decide (a.text ≤ b.text) = true → decide (b.text ≤ c.text) = true →
      decide (a.text ≤ c.text) = true := by
    intro a b c hab hbc
    simp only [decide_eq_true_eq] at hab hbc ⊢
    exact le_trans hab hbc
  have htotal : ∀ a b : Ident, (decide (a.text ≤ b.text) || decide (b.text ≤ a.text)) = true := by
    intro a b
    simp only [Bool.or_eq_true, decide_eq_true_eq]
    exact le_total _ _
  exact pairwise_dropRepeats
    ((List.pairwise_mergeSort htrans htotal ids).imp fun hle => of_decide_eq_true hle)

theorem isSet_ofList (ids : List Ident) : (ofList ids).IsSet :=
  (isSorted_ofList ids).isSet

theorem isSorted_empty : empty.IsSorted :=
  List.Pairwise.nil

/-! ## Intersections -/

theorem mem_inter {id : Ident} {left right : Candidates} :
    id ∈ (left.inter right).ids ↔ id ∈ left.ids ∧ id ∈ right.ids := by
  simp [inter, contains]

theorem mem_interAll {id : Ident} (first : Candidates) (rest : List Candidates) :
    id ∈ (interAll first rest).ids ↔ id ∈ first.ids ∧ ∀ set ∈ rest, id ∈ set.ids := by
  induction rest generalizing first with
  | nil => simp [interAll]
  | cons next others ih =>
      rw [interAll]
      split
      next hempty =>
        have hnone : first.ids = [] := by simpa [isEmpty] using hempty
        simp [hnone]
      next =>
        rw [ih, mem_inter]
        simp [and_assoc]

/-- Intersecting leaves identifiers out and keeps the others as they stand. -/
theorem sublist_interAll (first : Candidates) (rest : List Candidates) :
    (interAll first rest).ids.Sublist first.ids := by
  induction rest generalizing first with
  | nil => exact List.Sublist.refl _
  | cons next others ih =>
      rw [interAll]
      split
      · exact List.Sublist.refl _
      · exact (ih (first.inter next)).trans List.filter_sublist

/-- The intersection of several sets holds what all of them hold. -/
theorem mem_meet {id : Ident} {sets : List Candidates} {set : Candidates} (hmeet : meet sets = some set) :
    id ∈ set.ids ↔ ∀ other ∈ sets, id ∈ other.ids := by
  cases sets with
  | nil => cases hmeet
  | cons first rest =>
      cases hmeet
      simp [mem_interAll]

theorem sublist_meet {sets : List Candidates} {set : Candidates} (hmeet : meet sets = some set) :
    ∃ other ∈ sets, set.ids.Sublist other.ids := by
  cases sets with
  | nil => cases hmeet
  | cons first rest =>
      cases hmeet
      exact ⟨first, List.mem_cons_self, sublist_interAll first rest⟩

theorem isSet_meet {sets : List Candidates} {set : Candidates} (hmeet : meet sets = some set)
    (hsets : ∀ other ∈ sets, other.IsSet) : set.IsSet := by
  obtain ⟨other, hother, hsublist⟩ := sublist_meet hmeet
  exact (hsets other hother).sublist hsublist

theorem isSorted_meet {sets : List Candidates} {set : Candidates} (hmeet : meet sets = some set)
    (hsets : ∀ other ∈ sets, other.IsSorted) : set.IsSorted := by
  obtain ⟨other, hother, hsublist⟩ := sublist_meet hmeet
  exact (hsets other hother).sublist hsublist

theorem meet_eq_none {sets : List Candidates} : meet sets = none ↔ sets = [] := by
  cases sets <;> simp [meet]

/-- The intersection of the sets of several lists. -/
theorem exists_meet_ofList {α : Type} {items : List α} (hitems : items ≠ []) (idsOf : α → List Ident) :
    ∃ set, meet (items.map fun item => ofList (idsOf item)) = some set ∧ set.IsSorted ∧
      ∀ id, id ∈ set.ids ↔ ∀ item ∈ items, id ∈ idsOf item := by
  cases hmeet : meet (items.map fun item => ofList (idsOf item)) with
  | none => exact absurd (List.map_eq_nil_iff.mp (meet_eq_none.mp hmeet)) hitems
  | some set =>
      refine ⟨set, rfl, isSorted_meet hmeet ?_, fun id => ?_⟩
      · simp [isSorted_ofList]
      · simp [mem_meet hmeet]

theorem mem_meetPresent {id : Ident} {sets : List (Option Candidates)} {set : Candidates}
    (hmeet : meetPresent sets = some set) :
    id ∈ set.ids ↔ ∀ other, some other ∈ sets → id ∈ other.ids := by
  simp [mem_meet hmeet]

theorem isSet_meetPresent {sets : List (Option Candidates)} {set : Candidates}
    (hmeet : meetPresent sets = some set) (hsets : ∀ other, some other ∈ sets → other.IsSet) :
    set.IsSet := by
  apply isSet_meet hmeet
  intro other hother
  apply hsets other
  simpa using hother

theorem isSorted_meetPresent {sets : List (Option Candidates)} {set : Candidates}
    (hmeet : meetPresent sets = some set) (hsets : ∀ other, some other ∈ sets → other.IsSorted) :
    set.IsSorted := by
  apply isSorted_meet hmeet
  intro other hother
  apply hsets other
  simpa using hother

theorem meetPresent_eq_none {sets : List (Option Candidates)} :
    meetPresent sets = none ↔ ∀ set ∈ sets, set = none := by
  rw [meetPresent, meet_eq_none, List.filterMap_eq_nil_iff]
  rfl

end ComicCatalog.Candidates
