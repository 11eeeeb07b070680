import Mathlib.Data.List.Basic

/-! # Lists of named values

Where no name comes twice, the value that is found under a name is the one that stands with
it, wherever that is. Giving a name a value, in its place or at the end, leaves no name twice.
-/

namespace ComicCatalog

variable {α β : Type} [DecidableEq α]

theorem lookup_eq_none_of_not_mem {named : List (α × β)} {name : α}
    (hname : name ∉ named.map Prod.fst) : named.lookup name = none := by
  rw [List.lookup_eq_none_iff]
  intro field hfield
  rw [bne_iff_ne]
  rintro rfl
  exact hname (List.mem_map.mpr ⟨field, hfield, rfl⟩)

theorem lookup_eq_some_iff_mem {named : List (α × β)} (hdistinct : (named.map Prod.fst).Nodup)
    {name : α} {value : β} : named.lookup name = some value ↔ (name, value) ∈ named := by
  induction named with
  | nil => simp
  | cons first rest ih =>
      obtain ⟨other, found⟩ := first
      obtain ⟨hfirst, hrest⟩ := List.nodup_cons.mp hdistinct
      by_cases hname : name = other
      · subst hname
        have hmem : (name, value) ∉ rest := fun hmem => hfirst (List.mem_map.mpr ⟨_, hmem, rfl⟩)
        simp [hmem, eq_comm]
      · have hkey : (name == other) = false := by simp [hname]
        rw [List.lookup_cons, hkey, ih hrest]
        simp [hname]

/-- The order of distinct names does not matter to what is found. -/
theorem lookup_perm {named others : List (α × β)} (hperm : named.Perm others)
    (hdistinct : (others.map Prod.fst).Nodup) (name : α) :
    named.lookup name = others.lookup name := by
  have hnamed : (named.map Prod.fst).Nodup := (hperm.map Prod.fst).nodup_iff.mpr hdistinct
  apply Option.ext
  intro value
  rw [lookup_eq_some_iff_mem hnamed, lookup_eq_some_iff_mem hdistinct, hperm.mem_iff]

/-- The list with a value for a name, in its place if the name is there already. -/
def put : List (α × β) → α → β → List (α × β)
  | [], name, value => [(name, value)]
  | (other, old) :: rest, name, value =>
      if other = name then (name, value) :: rest else (other, old) :: put rest name value

theorem mem_put {named : List (α × β)} {name : α} {value : β} {field : α × β}
    (hfield : field ∈ put named name value) : field ∈ named ∨ field = (name, value) := by
  induction named with
  | nil => exact Or.inr (List.mem_singleton.mp hfield)
  | cons first rest ih =>
      obtain ⟨other, old⟩ := first
      unfold put at hfield
      split at hfield
      · rcases List.mem_cons.mp hfield with rfl | hfield
        · exact Or.inr rfl
        · exact Or.inl (List.mem_cons_of_mem _ hfield)
      · rcases List.mem_cons.mp hfield with rfl | hfield
        · exact Or.inl List.mem_cons_self
        · exact (ih hfield).imp_left (List.mem_cons_of_mem _)

theorem nodup_put {named : List (α × β)} (hnames : (named.map Prod.fst).Nodup) (name : α)
    (value : β) : ((put named name value).map Prod.fst).Nodup := by
  induction named with
  | nil => exact List.nodup_cons.mpr ⟨List.not_mem_nil, List.nodup_nil⟩
  | cons first rest ih =>
      obtain ⟨other, old⟩ := first
      obtain ⟨hfirst, hrest⟩ := List.nodup_cons.mp hnames
      unfold put
      split
      next hname => rwa [← hname]
      next hname =>
        refine List.nodup_cons.mpr ⟨fun hmem => ?_, ih hrest⟩
        obtain ⟨field, hfield, hother⟩ := List.mem_map.mp hmem
        rcases mem_put hfield with hfield | rfl
        · exact hfirst (List.mem_map.mpr ⟨field, hfield, hother⟩)
        · exact hname hother.symm

end ComicCatalog
