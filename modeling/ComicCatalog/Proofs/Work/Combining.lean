import ComicCatalog.Proofs.Work.Candidates
import Mathlib.Logic.Relation

/-! # Combining candidate sets

Fields are combined by intersecting the sets that are present. What comes out is told by which
sets those are: neither their order nor repeats nor absent fields among them matter, nor which
of them are combined first, nor that nothing is intersected any more once nothing is left.
-/

namespace ComicCatalog.Candidates

/-- The sets of lists of identifiers, where those are present. -/
def ofLists (lists : List (Option (List Ident))) : List (Option Candidates) :=
  lists.map fun ids => ids.map ofList

theorem mem_ofLists {lists : List (Option (List Ident))} {set : Candidates} :
    some set ∈ ofLists lists ↔ ∃ ids, some ids ∈ lists ∧ ofList ids = set := by
  simp [ofLists, List.mem_map, Option.map_eq_some_iff]

/-- Every set that is present is sorted. -/
def AllSorted (sets : List (Option Candidates)) : Prop :=
  ∀ set, some set ∈ sets → set.IsSorted

theorem allSorted_ofLists (lists : List (Option (List Ident))) : AllSorted (ofLists lists) := by
  intro set hset
  obtain ⟨ids, -, rfl⟩ := mem_ofLists.mp hset
  exact isSorted_ofList ids

/-- Every set that is present has the identifier. -/
def HeldByAll (id : Ident) (sets : List (Option Candidates)) : Prop :=
  ∀ set, some set ∈ sets → id ∈ set.ids

/-! ## Stopping early -/

theorem foldl_inter_of_isEmpty {first : Candidates} (hempty : first.isEmpty = true)
    (rest : List Candidates) : rest.foldl inter first = first := by
  have hids : first.ids = [] := by simpa [isEmpty] using hempty
  induction rest with
  | nil => rfl
  | cons next others ih =>
      have hnext : first.inter next = first := by
        cases first
        cases hids
        rfl
      rw [List.foldl_cons, hnext, ih]

/-- Nothing is lost by stopping once a set is empty. -/
theorem interAll_eq_foldl (first : Candidates) (rest : List Candidates) :
    interAll first rest = rest.foldl inter first := by
  induction rest generalizing first with
  | nil => rfl
  | cons next others ih =>
      rw [interAll]
      split
      next hempty => exact (foldl_inter_of_isEmpty hempty _).symm
      next => rw [ih, List.foldl_cons]

/-- The works of every set, with each of them intersected. -/
def meetThroughout : List Candidates → Option Candidates
  | [] => none
  | first :: rest => some (rest.foldl inter first)

theorem meet_eq_meetThroughout (sets : List Candidates) : meet sets = meetThroughout sets := by
  cases sets with
  | nil => rfl
  | cons first rest => rw [meet, meetThroughout, interAll_eq_foldl]

/-! ## Rearranging -/

/-- A combination is told by whether a set is present and by what all that are present hold. -/
theorem meetPresent_eq_of_heldByAll {sets others : List (Option Candidates)}
    (hsets : AllSorted sets) (hothers : AllSorted others)
    (hnone : (∀ set ∈ sets, set = none) ↔ ∀ set ∈ others, set = none)
    (hheld : ∀ id, HeldByAll id sets ↔ HeldByAll id others) :
    meetPresent sets = meetPresent others := by
  rw [← meetPresent_eq_none, ← meetPresent_eq_none] at hnone
  cases hset : meetPresent sets with
  | none => exact (hnone.mp hset).symm
  | some set =>
      cases hother : meetPresent others with
      | none =>
          rw [hnone.mpr hother] at hset
          cases hset
      | some other =>
          refine congrArg some ((isSorted_meetPresent hset hsets).eq_of_mem_iff
            (isSorted_meetPresent hother hothers) fun id => ?_)
          rw [mem_meetPresent hset, mem_meetPresent hother]
          exact hheld id

/-- One way to put a list of sets differently. -/
inductive Rearranged : List (Option Candidates) → List (Option Candidates) → Prop
  | permuted {sets others : List (Option Candidates)} (hperm : sets.Perm others) :
      Rearranged sets others
  | absent (sets : List (Option Candidates)) : Rearranged sets (none :: sets)
  | repeated {sets : List (Option Candidates)} {set : Option Candidates} (hset : set ∈ sets) :
      Rearranged sets (set :: sets)
  /-- A part is combined first, and what comes out takes its place. -/
  | regrouped (part rest : List (Option Candidates)) :
      Rearranged (part ++ rest) (meetPresent part :: rest)

theorem heldByAll_meetPresent {id : Ident} (part rest : List (Option Candidates)) :
    HeldByAll id (meetPresent part :: rest) ↔ HeldByAll id (part ++ rest) := by
  simp only [HeldByAll, List.mem_cons, List.mem_append, or_imp, forall_and]
  apply and_congr_left'
  cases hmeet : meetPresent part with
  | none =>
      have hnone : ∀ set, some set ∉ part := fun set hset =>
        nomatch meetPresent_eq_none.mp hmeet (some set) hset
      simp [hnone]
  | some set => simp [mem_meetPresent hmeet]

/-- Sets that are put differently are combined to the same. -/
theorem Rearranged.meetPresent_eq {sets others : List (Option Candidates)}
    (hother : Rearranged sets others) (hsets : AllSorted sets) :
    AllSorted others ∧ meetPresent others = meetPresent sets := by
  cases hother with
  | permuted hperm =>
      have hothers : AllSorted others := fun set hset => hsets set (hperm.mem_iff.mpr hset)
      refine ⟨hothers, (meetPresent_eq_of_heldByAll hsets hothers ?_ fun id => ?_).symm⟩
      · simp [hperm.mem_iff]
      · simp [HeldByAll, hperm.mem_iff]
  | absent =>
      have hothers : AllSorted (none :: sets) := by simpa [AllSorted] using hsets
      refine ⟨hothers, meetPresent_eq_of_heldByAll hothers hsets ?_ fun id => ?_⟩
      · simp
      · simp [HeldByAll]
  | @repeated sets set hset =>
      -- A set that comes again adds no member.
      have hmem : ∀ other, other ∈ set :: sets ↔ other ∈ sets := by
        intro other
        rw [List.mem_cons, or_iff_right_of_imp]
        rintro rfl
        exact hset
      have hothers : AllSorted (set :: sets) := fun other hother =>
        hsets other ((hmem (some other)).mp hother)
      refine ⟨hothers, meetPresent_eq_of_heldByAll hothers hsets ?_ fun id => ?_⟩
      · simp only [hmem]
      · simp only [HeldByAll, hmem]
  | regrouped part rest =>
      have hpart : AllSorted part := fun set hset => hsets set (List.mem_append_left rest hset)
      have hothers : AllSorted (meetPresent part :: rest) := by
        intro set hset
        rcases List.mem_cons.mp hset with hmeet | hset
        · exact isSorted_meetPresent hmeet.symm hpart
        · exact hsets set (List.mem_append_right part hset)
      refine ⟨hothers, meetPresent_eq_of_heldByAll hothers hsets ?_ fun id => ?_⟩
      · rw [List.forall_mem_cons, List.forall_mem_append, meetPresent_eq_none]
      · exact heldByAll_meetPresent part rest

theorem meetPresent_eq_of_rearranged {sets others : List (Option Candidates)}
    (hother : Relation.ReflTransGen Rearranged sets others) (hsets : AllSorted sets) :
    AllSorted others ∧ meetPresent others = meetPresent sets := by
  induction hother with
  | refl => exact ⟨hsets, rfl⟩
  | tail _ hstep ih =>
      obtain ⟨hsorted, hmeet⟩ := ih
      obtain ⟨hothers, hsame⟩ := hstep.meetPresent_eq hsorted
      exact ⟨hothers, hsame.trans hmeet⟩

/-- The combination of sets of listed identifiers. There is none exactly if no set is present.
Otherwise it has what all sets that are present have, once each and sorted by text. It stays the
same however often the sets are put in another order, repeated, joined by absent ones or combined
in part beforehand, and it is what intersecting all of them to the end gives. -/
theorem combination_of_lists (lists : List (Option (List Ident))) :
    (meetPresent (ofLists lists) = none ↔ ∀ ids ∈ lists, ids = none) ∧
    (∀ set, meetPresent (ofLists lists) = some set →
      set.IsSet ∧ set.IsSorted ∧ ∀ id, id ∈ set.ids ↔ ∀ ids, some ids ∈ lists → id ∈ ids) ∧
    (∀ others, Relation.ReflTransGen Rearranged (ofLists lists) others →
      meetPresent others = meetPresent (ofLists lists)) ∧
    meetPresent (ofLists lists) = meetThroughout ((ofLists lists).filterMap id) := by
  have hsorted := allSorted_ofLists lists
  refine ⟨?_, ?_, ?_, ?_⟩
  · rw [meetPresent_eq_none]
    simp [ofLists]
  · intro set hmeet
    have hset := isSorted_meetPresent hmeet hsorted
    refine ⟨hset.isSet, hset, fun id => ?_⟩
    rw [mem_meetPresent hmeet]
    constructor
    · intro hall ids hids
      exact mem_ofList.mp (hall (ofList ids) (mem_ofLists.mpr ⟨ids, hids, rfl⟩))
    · intro hall other hother
      obtain ⟨ids, hids, rfl⟩ := mem_ofLists.mp hother
      exact mem_ofList.mpr (hall ids hids)
  · exact fun others hothers => (meetPresent_eq_of_rearranged hothers hsorted).2
  · exact meet_eq_meetThroughout _

/-- An absent set leaves everything open, and an empty one leaves nothing. -/
example : meetPresent (ofLists [none, none]) = none ∧
    meetPresent (ofLists [none, some []]) = some empty := by
  decide +kernel

end ComicCatalog.Candidates
