import ComicCatalog.Proofs.Settings.Fields
import Mathlib

/-! # Settings in the environment

A variable that names a setting gives that setting its value and leaves the others alone. One
that starts differently, or whose first name is that of no section, gives none.
-/

namespace ComicCatalog

/-- The variable of a setting. -/
def Setting.variableName : Setting → String
  | .host => "MANGASHELF_SERVER__HOST"
  | .port => "MANGASHELF_SERVER__PORT"
  | .path => "MANGASHELF_DATABASE__PATH"
  | .pageSize => "MANGASHELF_CATALOG__PAGE_SIZE"
  | .allowedOrigins => "MANGASHELF_CORS__ALLOWED_ORIGINS"
  | .timeoutSecs => "MANGASHELF_PROXY__TIMEOUT_SECS"
  | .userAgent => "MANGASHELF_PROXY__USER_AGENT"
  | .referer => "MANGASHELF_PROXY__REFERER"

/-- The variable is that of the setting; its case does not matter. -/
def Setting.IsNamedBy (setting : Setting) (variableName : String) : Prop :=
  Text.asciiFold variableName = Text.asciiFold setting.variableName

instance (setting : Setting) (variableName : String) : Decidable (setting.IsNamedBy variableName) :=
  inferInstanceAs (Decidable (_ = _))

/-- The value that a setting has from its variable, if that is set. -/
def Setting.fromVariable? (setting : Setting) (environment : List (String × String)) : Option Tree :=
  (environment.find? fun entry => setting.IsNamedBy entry.1).map fun entry => Variables.value entry.2

namespace Variables

/-- The first name behind the mark of a variable. Two underscores end it, and so does a
point. -/
def firstName : List Char → List Char
  | '_' :: '_' :: _ => []
  | '.' :: _ => []
  | c :: rest => c :: firstName rest
  | [] => []

/-- The variable starts in another way than those of settings. -/
def IsForeign (name : String) : Prop :=
  ¬mark <+: (Text.asciiFold name).toList

/-- The variable starts as those of settings do, but its first name is that of no section. -/
def IsStray (name : String) : Prop :=
  ∃ rest, (Text.asciiFold name).toList = mark ++ rest ∧
    String.ofList (firstName rest) ∉ Tree.sectionNames

/-- The variable names a setting, or nothing that is near one. -/
def IsClear (name : String) : Prop :=
  (∃ setting : Setting, setting.IsNamedBy name) ∨ IsForeign name ∨ IsStray name

/-! ## Paths -/

theorem firstName_eq (cs : List Char) : firstName cs = (dotted cs).takeWhile (· != '.') := by
  fun_induction firstName cs with
  | case1 rest => rfl
  | case2 rest =>
      rw [dotted]
      · rfl
      · rintro tail ⟨⟩
  | case3 c rest hline hpoint ih =>
      have hkept : (c != '.') = true := by
        rw [bne_iff_ne]
        exact hpoint
      rw [dotted, List.takeWhile_cons, if_pos hkept, ih]
      exact hline
  | case4 => rfl

theorem head?_splitOn (cs : List Char) : (cs.splitOn '.').head? = some (cs.takeWhile (· != '.')) := by
  induction cs with
  | nil => rfl
  | cons c rest ih =>
      rw [List.splitOn, List.splitOnP_cons_eq_if_modifyHead]
      by_cases hc : c = '.'
      · simp [hc]
      · have hhead : (rest.splitOnP (· == '.')).head? = some (rest.takeWhile (· != '.')) := ih
        simp [hc, hhead]

theorem path?_of_isForeign {name : String} (hforeign : IsForeign name) : path? name = none := by
  rw [path?]
  exact if_neg fun hmark => hforeign (List.isPrefixOf_iff_prefix.mp hmark)

/-- A stray variable names no path, or one outside all sections. -/
theorem path?_of_isStray {name : String} (hstray : IsStray name) : path? name = none ∨
    ∃ first rest, path? name = some (first :: rest) ∧ first ∉ Tree.sectionNames := by
  obtain ⟨rest, hrest, hfirst⟩ := hstray
  have hmark : mark.isPrefixOf (mark ++ rest) = true := by
    rw [List.isPrefixOf_iff_prefix]
    exact List.prefix_append mark rest
  rw [path?]
  simp only [hrest, hmark, if_true, List.drop_left]
  split
  · exact Or.inl rfl
  · right
    -- Where two underscores end the first name, a point does so too once they are replaced.
    have hhead := head?_splitOn (dotted rest)
    cases hnames : (dotted rest).splitOn '.' with
    | nil =>
        rw [hnames] at hhead
        cases hhead
    | cons first others =>
        rw [hnames, List.head?_cons, Option.some.injEq, ← firstName_eq] at hhead
        exact ⟨_, _, rfl, hhead ▸ hfirst⟩

theorem path?_of_isNamedBy {setting : Setting} {name : String} (hname : setting.IsNamedBy name) :
    path? name = some [setting.sectionName, setting.name] := by
  have hpath : path? name = path? setting.variableName := by
    rw [path?, path?, show Text.asciiFold name = _ from hname]
  rw [hpath]
  cases setting <;> cbv

theorem eq_of_isNamedBy {setting other : Setting} {name : String} (hname : setting.IsNamedBy name)
    (hother : other.IsNamedBy name) : setting = other := by
  have hpath := path?_of_isNamedBy hname
  rw [path?_of_isNamedBy hother] at hpath
  simp only [Option.some.injEq, List.cons.injEq] at hpath
  exact (Setting.name_injective hpath.2.1).symm

/-- A variable of no setting, in no section. -/
theorem path?_idle {name : String} (hidle : IsForeign name ∨ IsStray name) : path? name = none ∨
    ∃ first rest, path? name = some (first :: rest) ∧ first ∉ Tree.sectionNames :=
  hidle.elim (fun hforeign => Or.inl (path?_of_isForeign hforeign)) path?_of_isStray

theorem not_isNamedBy {name : String} (hidle : IsForeign name ∨ IsStray name)
    (setting : Setting) : ¬setting.IsNamedBy name := by
  intro hname
  rcases path?_idle hidle with hnone | ⟨first, rest, hpath, hfirst⟩
  · rw [path?_of_isNamedBy hname] at hnone
    cases hnone
  · rw [path?_of_isNamedBy hname] at hpath
    cases hpath
    exact hfirst setting.sectionName_mem

/-- A clear variable is that of a setting, or it is that of none and names nothing in any
section. -/
theorem IsClear.cases {name : String} (hclear : IsClear name) :
    (∃ setting : Setting, setting.IsNamedBy name ∧
      path? name = some [setting.sectionName, setting.name]) ∨
    (∀ setting : Setting, ¬setting.IsNamedBy name) ∧ (path? name = none ∨
      ∃ first rest, path? name = some (first :: rest) ∧ first ∉ Tree.sectionNames) := by
  rcases hclear with ⟨setting, hname⟩ | hidle
  · exact Or.inl ⟨setting, hname, path?_of_isNamedBy hname⟩
  · exact Or.inr ⟨not_isNamedBy hidle, path?_idle hidle⟩

/-! ## Layers -/

/-- The settings so far, with one more variable. -/
def extend (fields : List (String × Tree)) (entry : String × String) : List (String × Tree) :=
  match path? entry.1 with
  | some (first :: rest) => Tree.mergeFields fields [(first, Tree.atPath (value entry.2) rest)]
  | _ => fields

theorem layer_eq (environment : List (String × String)) :
    layer environment = .table ((sorted environment).foldl extend []) := rfl

/-- Variables that do not start as those of settings do add nothing. -/
theorem foldl_extend_of_isForeign {entries : List (String × String)}
    (hforeign : ∀ entry ∈ entries, IsForeign entry.1) (fields : List (String × Tree)) :
    entries.foldl extend fields = fields := by
  induction entries with
  | nil => rfl
  | cons entry rest ih =>
      obtain ⟨hentry, hrest⟩ := List.forall_mem_cons.mp hforeign
      rw [List.foldl_cons, extend, path?_of_isForeign hentry]
      exact ih hrest

theorem layer_of_isForeign {environment : List (String × String)}
    (hforeign : ∀ entry ∈ environment, IsForeign entry.1) : layer environment = .table [] := by
  have hperm : (sorted environment).Perm environment := List.mergeSort_perm _ _
  rw [layer_eq, foldl_extend_of_isForeign fun entry hentry =>
    hforeign entry (hperm.mem_iff.mp hentry)]

theorem isSectioned_nil : Tree.IsSectioned [] where
  names := List.nodup_nil
  sections := nofun

theorem isSectioned_single (first : String) {tree : Tree}
    (htree : first ∈ Tree.sectionNames → ∃ inner, tree = .table inner ∧ (inner.map Prod.fst).Nodup) :
    Tree.IsSectioned [(first, tree)] where
  names := List.nodup_cons.mpr ⟨List.not_mem_nil, List.nodup_nil⟩
  sections := by
    intro name hname found hfound
    rw [List.lookup_cons] at hfound
    split at hfound
    next hkey =>
      cases hfound
      exact htree (beq_iff_eq.mp hkey ▸ hname)
    next => cases hfound

theorem inSection?_single (setting named : Setting) (tree : Tree) :
    Tree.inSection? [(named.sectionName, .table [(named.name, tree)])] setting.sectionName setting.name =
      if setting = named then some tree else none := by
  cases setting <;> cases named <;> rfl

/-- A clear variable changes the setting that it names and no other. -/
theorem inSection?_extend {fields : List (String × Tree)} (hfields : Tree.IsSectioned fields)
    {entry : String × String} (hclear : IsClear entry.1) :
    Tree.IsSectioned (extend fields entry) ∧ ∀ setting : Setting,
      Tree.inSection? (extend fields entry) setting.sectionName setting.name =
        if setting.IsNamedBy entry.1 then
          some (Tree.laidOver (Tree.inSection? fields setting.sectionName setting.name) (value entry.2))
        else Tree.inSection? fields setting.sectionName setting.name := by
  rcases hclear.cases with ⟨named, hnamed, hpath⟩ | ⟨hnone, hpath | ⟨first, rest, hpath, hfirst⟩⟩
  · -- The variable names a setting: its layer has this one, and no other setting is in it.
    have hlayer : Tree.IsSectioned [(named.sectionName, .table [(named.name, value entry.2)])] :=
      isSectioned_single _ fun _ => ⟨_, rfl, List.nodup_cons.mpr ⟨List.not_mem_nil, List.nodup_nil⟩⟩
    have hextend : extend fields entry =
        Tree.mergeFields fields [(named.sectionName, .table [(named.name, value entry.2)])] := by
      rw [extend, hpath]
      rfl
    rw [hextend]
    refine ⟨hfields.merge hlayer, fun setting => ?_⟩
    rw [Tree.inSection?_merge hfields hlayer setting.sectionName_mem, inSection?_single]
    by_cases hsetting : setting = named
    · subst hsetting
      rw [if_pos rfl, if_pos hnamed]
      rfl
    · have hother : ¬setting.IsNamedBy entry.1 := fun hname => hsetting (eq_of_isNamedBy hname hnamed)
      rw [if_neg hsetting, if_neg hother]
      rfl
  · -- The variable has no path.
    have hextend : extend fields entry = fields := by rw [extend, hpath]
    rw [hextend]
    exact ⟨hfields, fun setting => (if_neg (hnone setting)).symm⟩
  · -- The path leads beside the sections.
    have hlayer : Tree.IsSectioned [(first, Tree.atPath (value entry.2) rest)] :=
      isSectioned_single _ fun hsection => absurd hsection hfirst
    have hextend : extend fields entry =
        Tree.mergeFields fields [(first, Tree.atPath (value entry.2) rest)] := by rw [extend, hpath]
    rw [hextend]
    refine ⟨hfields.merge hlayer, fun setting => ?_⟩
    have habsent : [(first, Tree.atPath (value entry.2) rest)].lookup setting.sectionName = none := by
      apply lookup_eq_none_of_not_mem
      intro hmem
      have hsame : setting.sectionName = first := List.mem_singleton.mp hmem
      exact hfirst (hsame ▸ setting.sectionName_mem)
    rw [Tree.inSection?_merge hfields hlayer setting.sectionName_mem,
      Tree.inSection?_eq_none habsent, if_neg (hnone setting)]
    rfl

/-- Clear variables change the settings that they name, one after the other. -/
theorem inSection?_foldl {entries : List (String × String)}
    (hclear : ∀ entry ∈ entries, IsClear entry.1) {fields : List (String × Tree)}
    (hfields : Tree.IsSectioned fields) :
    Tree.IsSectioned (entries.foldl extend fields) ∧ ∀ setting : Setting,
      Tree.inSection? (entries.foldl extend fields) setting.sectionName setting.name =
        (entries.filter fun entry => setting.IsNamedBy entry.1).foldl
          (fun old entry => some (Tree.laidOver old (value entry.2)))
          (Tree.inSection? fields setting.sectionName setting.name) := by
  -- The settings so far are general: the first variable has changed them for the others.
  induction entries generalizing fields with
  | nil => exact ⟨hfields, fun _ => rfl⟩
  | cons entry rest ih =>
      obtain ⟨hentry, hrest⟩ := List.forall_mem_cons.mp hclear
      obtain ⟨hextended, hchanged⟩ := inSection?_extend hfields hentry
      obtain ⟨hsectioned, hfound⟩ := ih hrest hextended
      refine ⟨hsectioned, fun setting => ?_⟩
      rw [List.foldl_cons, hfound, hchanged, List.filter_cons]
      by_cases hname : setting.IsNamedBy entry.1
      · simp [hname]
      · simp [hname]

/-- At most one thing comes in one order only. -/
theorem eq_of_perm_of_length_le {α : Type} {items others : List α} (hperm : items.Perm others)
    (hlength : others.length ≤ 1) : items = others := by
  cases others with
  | nil => exact hperm.eq_nil
  | cons first rest =>
      have hrest : rest = [] := List.length_eq_zero_iff.mp (by simpa using hlength)
      subst hrest
      exact hperm.eq_singleton

/-- Where no setting is named twice, each has in the layer of the variables the value of its
variable. -/
theorem inSection?_layer {environment : List (String × String)}
    (hclear : ∀ entry ∈ environment, IsClear entry.1)
    (honce : ∀ setting : Setting, (environment.filter fun entry => setting.IsNamedBy entry.1).length ≤ 1) :
    ∃ fields, layer environment = .table fields ∧ Tree.IsSectioned fields ∧ ∀ setting : Setting,
      Tree.inSection? fields setting.sectionName setting.name = setting.fromVariable? environment := by
  have hperm : (sorted environment).Perm environment := List.mergeSort_perm _ _
  obtain ⟨hsectioned, hfound⟩ := inSection?_foldl
    (fun entry hentry => hclear entry (hperm.mem_iff.mp hentry)) isSectioned_nil
  refine ⟨_, layer_eq environment, hsectioned, fun setting => ?_⟩
  have hnamed := hperm.filter fun entry => setting.IsNamedBy entry.1
  rw [hfound, Setting.fromVariable?, ← List.head?_filter, eq_of_perm_of_length_le hnamed (honce setting)]
  have hlength := honce setting
  cases hentries : environment.filter fun entry => setting.IsNamedBy entry.1 with
  | nil => rfl
  | cons entry rest =>
      rw [hentries] at hlength
      have hrest : rest = [] := List.length_eq_zero_iff.mp (by simpa using hlength)
      rw [hrest]
      rfl

end Variables

end ComicCatalog
