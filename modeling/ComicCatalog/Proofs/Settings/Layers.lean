import ComicCatalog.Proofs.Named
import ComicCatalog.Settings.Variables

/-! # Layers of settings

Settings stand in sections. A later layer that has a setting lays it over the one of the
layers below, and leaves every other setting of the section, and every other section, as it
was. So of layers and variables each setting has the last value that it was given.
-/

namespace ComicCatalog

namespace Tree

/-- A value laid over what was there. -/
def laidOver : Option Tree → Tree → Tree
  | some old, value => merge old value
  | none, value => value

theorem setField_eq_put (fields : List (String × Tree)) (name : String) (value : Tree) :
    setField fields name value = put fields name value := by
  induction fields with
  | nil => rfl
  | cons first rest ih => rw [setField, put, ih]

theorem mergeFields_cons (base : List (String × Tree)) (name : String) (value : Tree)
    (rest : List (String × Tree)) :
    mergeFields base ((name, value) :: rest) =
      mergeFields (setField base name (laidOver (base.lookup name) value)) rest := by
  rw [mergeFields]
  cases base.lookup name <;> rfl

theorem nodup_mergeFields {base : List (String × Tree)} (hbase : (base.map Prod.fst).Nodup)
    (later : List (String × Tree)) : ((mergeFields base later).map Prod.fst).Nodup := by
  induction later generalizing base with
  | nil => rwa [mergeFields]
  | cons field rest ih =>
      rw [mergeFields_cons]
      apply ih
      rw [setField_eq_put]
      exact nodup_put hbase _ _

/-- What a later layer does not name stays, and what it names is laid over. -/
theorem lookup_mergeFields (base : List (String × Tree)) {later : List (String × Tree)}
    (hlater : (later.map Prod.fst).Nodup) (name : String) :
    (mergeFields base later).lookup name =
      ((later.lookup name).map (laidOver (base.lookup name))).or (base.lookup name) := by
  induction later generalizing base with
  | nil =>
      rw [mergeFields]
      rfl
  | cons field rest ih =>
      obtain ⟨other, value⟩ := field
      obtain ⟨hother, hrest⟩ := List.nodup_cons.mp hlater
      rw [mergeFields_cons, ih _ hrest, lookup_setField, List.lookup_cons]
      by_cases hname : name = other
      · subst hname
        simp [lookup_eq_none_of_not_mem hother]
      · have hkey : (name == other) = false := by simp [hname]
        simp [hname, hkey]

/-! ## Sections -/

/-- The names of the sections. -/
def sectionNames : List String :=
  ["server", "database", "catalog", "cors", "proxy"]

/-- No name comes twice, and every section that is there is a table of distinct names. -/
structure IsSectioned (fields : List (String × Tree)) : Prop where
  names : (fields.map Prod.fst).Nodup
  sections : ∀ name ∈ sectionNames, ∀ tree, fields.lookup name = some tree →
    ∃ inner, tree = .table inner ∧ (inner.map Prod.fst).Nodup

/-- The value of a name in a section. -/
def inSection? (fields : List (String × Tree)) (sectionName name : String) : Option Tree :=
  match fields.lookup sectionName with
  | some (.table inner) => inner.lookup name
  | _ => none

theorem inSection?_eq_some {fields : List (String × Tree)} {sectionName name : String} {value : Tree} :
    inSection? fields sectionName name = some value ↔
      ∃ inner, fields.lookup sectionName = some (.table inner) ∧ inner.lookup name = some value := by
  unfold inSection?
  constructor
  · intro hvalue
    split at hvalue
    next inner hinner => exact ⟨inner, hinner, hvalue⟩
    next => cases hvalue
  · rintro ⟨inner, hinner, hvalue⟩
    rw [hinner]
    exact hvalue

theorem inSection?_eq_none {fields : List (String × Tree)} {sectionName : String}
    (hnone : fields.lookup sectionName = none) (name : String) :
    inSection? fields sectionName name = none := by
  rw [inSection?, hnone]

theorem inSection?_of_lookup {fields inner : List (String × Tree)} {sectionName : String}
    (hinner : fields.lookup sectionName = some (.table inner)) (name : String) :
    inSection? fields sectionName name = inner.lookup name := by
  rw [inSection?, hinner]

variable {base later : List (String × Tree)}

/-- How two sections meet when layers are merged. -/
theorem lookup_section (hlater : IsSectioned later) {sectionName : String}
    (hname : sectionName ∈ sectionNames) :
    later.lookup sectionName = none ∧
        (mergeFields base later).lookup sectionName = base.lookup sectionName ∨
      ∃ inner, (inner.map Prod.fst).Nodup ∧ later.lookup sectionName = some (.table inner) ∧
        (mergeFields base later).lookup sectionName =
          some (laidOver (base.lookup sectionName) (.table inner)) := by
  have hmerged := lookup_mergeFields base hlater.names sectionName
  cases hlookup : later.lookup sectionName with
  | none =>
      rw [hlookup] at hmerged
      exact Or.inl ⟨rfl, hmerged⟩
  | some tree =>
      obtain ⟨inner, rfl, hinner⟩ := hlater.sections sectionName hname tree hlookup
      rw [hlookup] at hmerged
      exact Or.inr ⟨inner, hinner, rfl, hmerged⟩

theorem IsSectioned.merge (hbase : IsSectioned base) (hlater : IsSectioned later) :
    IsSectioned (mergeFields base later) where
  names := nodup_mergeFields hbase.names later
  sections := by
    intro name hname tree htree
    rcases lookup_section hlater hname with ⟨-, hkept⟩ | ⟨inner, hinner, -, hmerged⟩
    · exact hbase.sections name hname tree (hkept ▸ htree)
    · rw [hmerged, Option.some.injEq] at htree
      cases hold : base.lookup name with
      | none =>
          rw [hold] at htree
          exact ⟨inner, htree.symm, hinner⟩
      | some old =>
          obtain ⟨before, rfl, hbefore⟩ := hbase.sections name hname old hold
          rw [hold, laidOver, Tree.merge] at htree
          exact ⟨_, htree.symm, nodup_mergeFields hbefore inner⟩

/-- Of two layers a setting has the later value, laid over the earlier one, or else the
earlier one. -/
theorem inSection?_merge (hbase : IsSectioned base) (hlater : IsSectioned later)
    {sectionName : String} (hname : sectionName ∈ sectionNames) (name : String) :
    inSection? (mergeFields base later) sectionName name =
      ((inSection? later sectionName name).map (laidOver (inSection? base sectionName name))).or
        (inSection? base sectionName name) := by
  rcases lookup_section hlater hname with ⟨hnone, hkept⟩ | ⟨inner, hinner, hsome, hmerged⟩
  · rw [inSection?_eq_none hnone, inSection?, hkept, ← inSection?]
    rfl
  · rw [inSection?_of_lookup hsome]
    cases hold : base.lookup sectionName with
    | none =>
        rw [hold] at hmerged
        rw [inSection?_of_lookup hmerged, inSection?_eq_none hold]
        cases inner.lookup name <;> rfl
    | some old =>
        obtain ⟨before, rfl, -⟩ := hbase.sections sectionName hname old hold
        rw [hold, laidOver, Tree.merge] at hmerged
        rw [inSection?_of_lookup hmerged, inSection?_of_lookup hold, lookup_mergeFields _ hinner]

end Tree

end ComicCatalog
