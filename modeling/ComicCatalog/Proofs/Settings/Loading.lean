import ComicCatalog.Proofs.Settings.Environment
import ComicCatalog.Proofs.Toml.Names
import ComicCatalog.Settings.Loading

/-! # Loaded settings

Settings are typed only after all layers are merged. So each setting is judged by the last
value that it was given, by its variable, by the file or by default, whatever the layers below
have and whatever becomes of the other settings.
-/

namespace ComicCatalog

namespace Setting

/-- The value that a setting has in the end: that of its variable, or else that of the file, or
else its default. -/
def effective (setting : Setting) (fields : List (String × Tree))
    (environment : List (String × String)) : Tree :=
  (setting.fromVariable? environment).getD
    ((Tree.inSection? fields setting.sectionName setting.name).getD setting.default)

/-! ## Values over values -/

theorem not_hasType_table (setting : Setting) (fields : List (String × Tree)) :
    ¬setting.HasType (.table fields) := by
  cases setting <;> simp [HasType]

/-- Only tables are changed by what they are laid over, and stay tables. -/
theorem laidOver_cases (old : Option Tree) (value : Tree) : Tree.laidOver old value = value ∨
    ∃ fields merged, value = .table fields ∧ Tree.laidOver old value = .table merged := by
  cases old with
  | none => exact Or.inl rfl
  | some old =>
      cases value with
      | table fields =>
          right
          cases old <;> exact ⟨fields, _, rfl, rfl⟩
      | _ => exact Or.inl rfl

theorem hasType_laidOver (setting : Setting) (old : Option Tree) (value : Tree) :
    setting.HasType (Tree.laidOver old value) ↔ setting.HasType value := by
  rcases laidOver_cases old value with hsame | ⟨fields, merged, rfl, hover⟩
  · rw [hsame]
  · rw [hover]
    exact iff_of_false (setting.not_hasType_table merged) (setting.not_hasType_table fields)

theorem holds_laidOver (setting : Setting) (old : Option Tree) (value : Tree) (settings : Settings) :
    setting.Holds (Tree.laidOver old value) settings ↔ setting.Holds value settings := by
  rcases laidOver_cases old value with hsame | ⟨fields, merged, rfl, hover⟩
  · rw [hsame]
  · rw [hover]
    exact iff_of_false (fun hholds => setting.not_hasType_table merged hholds.hasType)
      fun hholds => setting.not_hasType_table fields hholds.hasType

/-- A value that is laid over another, where there is one. -/
def layered (later : Option Tree) (old : Tree) : Tree :=
  (later.map (Tree.laidOver (some old))).getD old

/-- The value in three layers is as good as the last one. -/
theorem hasType_layered (setting : Setting) (last later : Option Tree) (first : Tree) :
    setting.HasType (layered last (layered later first)) ↔
      setting.HasType (last.getD (later.getD first)) := by
  cases last <;> cases later <;> simp [layered, hasType_laidOver]

theorem holds_layered (setting : Setting) (last later : Option Tree) (first : Tree)
    (settings : Settings) : setting.Holds (layered last (layered later first)) settings ↔
      setting.Holds (last.getD (later.getD first)) settings := by
  cases last <;> cases later <;> simp [layered, holds_laidOver]

end Setting

namespace Settings

variable {fields : List (String × Tree)} {environment : List (String × String)}

/-! ## Three layers -/

theorem defaults_sectioned : ∃ fields, toTree {} = .table fields ∧ Tree.IsSectioned fields ∧
    ∀ setting : Setting,
      Tree.inSection? fields setting.sectionName setting.name = some setting.default := by
  refine ⟨_, rfl, ⟨by decide, ?_⟩, ?_⟩
  · intro name hname tree htree
    simp only [Tree.sectionNames, List.mem_cons, List.not_mem_nil, or_false] at hname
    rcases hname with rfl | rfl | rfl | rfl | rfl
    all_goals
      cases htree
      exact ⟨_, rfl, by decide⟩
  · intro setting
    cases setting <;> rfl

theorem file_sectioned {content : String}
    (hfile : Toml.read? content = some (.table fields))
    (hsections : ∀ name ∈ Tree.sectionNames, ∀ tree, fields.lookup name = some tree →
      ∃ inner, tree = .table inner) : Tree.IsSectioned fields := by
  obtain ⟨_, hfields, hnames, hinner⟩ := Toml.read?_distinct hfile
  cases hfields
  refine ⟨hnames, fun name hname tree htree => ?_⟩
  obtain ⟨inner, rfl⟩ := hsections name hname tree htree
  exact ⟨inner, rfl, hinner _ ((lookup_eq_some_iff_mem hnames).mp htree)⟩

/-- Of the defaults, the file and the variables, merged in this order, each setting has the
last value. -/
theorem merged_layers (hfields : Tree.IsSectioned fields)
    (hclear : ∀ entry ∈ environment, Variables.IsClear entry.1)
    (honce : ∀ setting : Setting,
      (environment.filter fun entry => setting.IsNamedBy entry.1).length ≤ 1) :
    ∃ merged, ((toTree {}).merge (.table fields)).merge (Variables.layer environment) = .table merged ∧
      ∀ setting : Setting, Tree.inSection? merged setting.sectionName setting.name =
        some (Setting.layered (setting.fromVariable? environment)
          (Setting.layered (Tree.inSection? fields setting.sectionName setting.name)
            setting.default)) := by
  obtain ⟨defaults, hdefaults, hbase, hdefault⟩ := defaults_sectioned
  obtain ⟨named, hlayer, hnamed, hvariable⟩ := Variables.inSection?_layer hclear honce
  refine ⟨Tree.mergeFields (Tree.mergeFields defaults fields) named, ?_, fun setting => ?_⟩
  · rw [hdefaults, hlayer, Tree.merge, Tree.merge]
  · have hname := setting.sectionName_mem
    rw [Tree.inSection?_merge (hbase.merge hfields) hnamed hname,
      Tree.inSection?_merge hbase hfields hname, hdefault, hvariable]
    cases Tree.inSection? fields setting.sectionName setting.name <;>
      cases setting.fromVariable? environment <;> rfl

theorem load_eq (path : String) {content : String} {tree : Tree}
    (hfile : Toml.read? content = some tree) :
    load path (.text content) environment =
      (ofTree? (((toTree {}).merge tree).merge (Variables.layer environment))).elim
        (.error .unreadable) .ok := by
  rw [load, if_neg nofun]
  simp only [fileLayer?, hfile, Option.map_some, Option.bind_some]
  cases ofTree? (((toTree {}).merge tree).merge (Variables.layer environment)) <;> rfl

/-- What is no configuration text cannot be loaded. -/
theorem load_unreadable (path : String) {content : String} (hfile : Toml.read? content = none) :
    load path (.text content) environment = .error .unreadable := by
  rw [load, if_neg nofun]
  simp only [fileLayer?, hfile, Option.map_none, Option.bind_none]

section Loaded

variable {content : String} (path : String)
  (hfile : Toml.read? content = some (.table fields))
  (hsections : ∀ name ∈ Tree.sectionNames, ∀ tree, fields.lookup name = some tree →
    ∃ inner, tree = .table inner)
  (hclear : ∀ entry ∈ environment, Variables.IsClear entry.1)
  (honce : ∀ setting : Setting,
    (environment.filter fun entry => setting.IsNamedBy entry.1).length ≤ 1)

include hfile hsections hclear honce

/-- The settings that are loaded are those that have each the value that it has in the end. -/
theorem load_eq_ok (settings : Settings) : load path (.text content) environment = .ok settings ↔
    ∀ setting : Setting, setting.Holds (setting.effective fields environment) settings := by
  obtain ⟨merged, hmerged, hvalue⟩ := merged_layers (file_sectioned hfile hsections) hclear honce
  have hread : ofTree? (.table merged) = some settings ↔
      ∀ setting : Setting, setting.Holds (setting.effective fields environment) settings := by
    simp only [ofTree?_eq_some hvalue, Setting.holds_layered, Setting.effective]
  rw [load_eq path hfile, hmerged, ← hread]
  cases ofTree? (.table merged) <;> simp

/-- Settings cannot be loaded exactly if one has in the end a value of another type than its
own. -/
theorem load_eq_error (error : SettingsError) :
    load path (.text content) environment = .error error ↔ error = .unreadable ∧
      ∃ setting : Setting, ¬setting.HasType (setting.effective fields environment) := by
  obtain ⟨merged, hmerged, hvalue⟩ := merged_layers (file_sectioned hfile hsections) hclear honce
  have hread : ofTree? (.table merged) = none ↔
      ∃ setting : Setting, ¬setting.HasType (setting.effective fields environment) := by
    simp only [ofTree?_eq_none hvalue, Setting.hasType_layered, Setting.effective]
  rw [load_eq path hfile, hmerged, ← hread]
  cases ofTree? (.table merged) <;> simp [eq_comm]

end Loaded

/-! ## Variables of nothing -/

/-- Variables of no setting, wherever they stand, leave each setting its own variables. -/
theorem filter_idle {others all : List (String × String)}
    (honce : ∀ setting : Setting,
      (environment.filter fun entry => setting.IsNamedBy entry.1).length ≤ 1)
    (hothers : ∀ entry ∈ others, Variables.IsForeign entry.1 ∨ Variables.IsStray entry.1)
    (hall : all.Perm (environment ++ others)) (setting : Setting) :
    (all.filter fun entry => setting.IsNamedBy entry.1) =
      environment.filter fun entry => setting.IsNamedBy entry.1 := by
  have hnone : (others.filter fun entry => setting.IsNamedBy entry.1) = [] := by
    rw [List.filter_eq_nil_iff]
    intro entry hentry
    rw [decide_eq_true_eq]
    exact Variables.not_isNamedBy (hothers entry hentry) setting
  have hnamed := hall.filter fun entry => setting.IsNamedBy entry.1
  rw [List.filter_append, hnone, List.append_nil] at hnamed
  exact Variables.eq_of_perm_of_length_le hnamed (honce setting)

/-- Over a file whose sections are tables, and with no setting named twice: what is loaded has
in each setting the value of its variable, or else of the file, or else the default. Nothing is
loaded exactly if one of these values is of another type than its setting, whatever else the
layers hold, and variables outside the sections change nothing. -/
theorem load_by_layers {content : String} {fields : List (String × Tree)} (path : String)
    (hfile : Toml.read? content = some (.table fields))
    (hsections : ∀ name ∈ Tree.sectionNames, ∀ tree, fields.lookup name = some tree →
      ∃ inner, tree = .table inner)
    {environment : List (String × String)}
    (hclear : ∀ entry ∈ environment, Variables.IsClear entry.1)
    (honce : ∀ setting : Setting,
      (environment.filter fun entry => setting.IsNamedBy entry.1).length ≤ 1) :
    (∀ settings, load path (.text content) environment = .ok settings ↔
      ∀ setting : Setting, setting.Holds (setting.effective fields environment) settings) ∧
    (∀ error, load path (.text content) environment = .error error ↔ error = .unreadable ∧
      ∃ setting : Setting, ¬setting.HasType (setting.effective fields environment)) ∧
    ∀ others all : List (String × String),
      (∀ entry ∈ others, Variables.IsForeign entry.1 ∨ Variables.IsStray entry.1) →
      all.Perm (environment ++ others) →
      load path (.text content) all = load path (.text content) environment := by
  refine ⟨load_eq_ok path hfile hsections hclear honce,
    load_eq_error path hfile hsections hclear honce, fun others all hothers hall => ?_⟩
  have hsame := filter_idle honce hothers hall
  have hclear' : ∀ entry ∈ all, Variables.IsClear entry.1 := by
    intro entry hentry
    rcases List.mem_append.mp (hall.mem_iff.mp hentry) with hentry | hentry
    · exact hclear entry hentry
    · exact Or.inr (hothers entry hentry)
  have honce' : ∀ setting : Setting,
      (all.filter fun entry => setting.IsNamedBy entry.1).length ≤ 1 :=
    fun setting => hsame setting ▸ honce setting
  have heffective : ∀ setting : Setting,
      setting.effective fields all = setting.effective fields environment := by
    intro setting
    rw [Setting.effective, Setting.effective, Setting.fromVariable?, Setting.fromVariable?,
      ← List.head?_filter, ← List.head?_filter, hsame]
  -- Both runs are settled by the same values, so neither is computed.
  cases hloaded : load path (.text content) environment with
  | ok settings =>
      rw [load_eq_ok path hfile hsections hclear honce] at hloaded
      rw [load_eq_ok path hfile hsections hclear' honce']
      simpa only [heffective] using hloaded
  | error error =>
      rw [load_eq_error path hfile hsections hclear honce] at hloaded
      rw [load_eq_error path hfile hsections hclear' honce']
      simpa only [heffective] using hloaded

/-- A text in the file that is no port does no harm under a variable that is one. -/
theorem load_by_layers_overridden :
    let content := "[server]\nport = \"eighty\"\n\n[proxy]\nuser_agent = \"reader/1\"\n"
    let environment :=
      [("MANGASHELF_SERVER__PORT", "9000"), ("MANGASHELF_PROXY__TIMEOUT_SECS", "5"), ("HOME", "/root")]
    load "catalog.toml" (.text content) (("MANGASHELF_CONFIG", "catalog.toml") :: environment) =
      .ok { server := { port := 9000 }, proxy := { timeoutSecs := 5, userAgent := "reader/1" } } ∧
    load "catalog.toml" (.text content) [] = .error .unreadable := by
  intro content environment
  let fields : List (String × Tree) :=
    [("server", .table [("port", .text "eighty")]), ("proxy", .table [("user_agent", .text "reader/1")])]
  have hfile : Toml.read? content = some (.table fields) := by cbv
  have hsections : ∀ name ∈ Tree.sectionNames, ∀ tree, fields.lookup name = some tree →
      ∃ inner, tree = .table inner := by
    intro name hname tree htree
    have hmem := (lookup_eq_some_iff_mem (by decide)).mp htree
    simp only [fields, List.mem_cons, Prod.mk.injEq, List.not_mem_nil, or_false] at hmem
    rcases hmem with ⟨-, rfl⟩ | ⟨-, rfl⟩
    · exact ⟨_, rfl⟩
    · exact ⟨_, rfl⟩
  have hforeign : Variables.IsForeign "HOME" := by
    rw [Variables.IsForeign, ← List.isPrefixOf_iff_prefix]
    cbv
    simp
  have hstray : Variables.IsStray "MANGASHELF_CONFIG" := ⟨"config".toList, by cbv, by decide⟩
  have hclear : ∀ entry ∈ environment, Variables.IsClear entry.1 := by
    simp only [environment, List.forall_mem_cons]
    exact ⟨Or.inl ⟨.port, rfl⟩, Or.inl ⟨.timeoutSecs, rfl⟩, Or.inr (Or.inl hforeign),
      List.forall_mem_nil fun entry : String × String => Variables.IsClear entry.1⟩
  -- Two of the variables name a setting each, and the third is foreign.
  have hnamed : ∀ setting : Setting, (environment.filter fun entry => setting.IsNamedBy entry.1) =
      if setting = .port then [("MANGASHELF_SERVER__PORT", "9000")]
      else if setting = .timeoutSecs then [("MANGASHELF_PROXY__TIMEOUT_SECS", "5")] else [] := by
    intro setting
    cases setting <;> decide
  have honce : ∀ setting : Setting,
      (environment.filter fun entry => setting.IsNamedBy entry.1).length ≤ 1 := by
    intro setting
    rw [hnamed]
    split_ifs <;> decide
  have hport : Variables.value "9000" = .integer 9000 := by cbv
  have htimeout : Variables.value "5" = .integer 5 := by cbv
  have haddress : Address.ofText? "0.0.0.0" = some (.v4 0) := by cbv
  obtain ⟨hok, -, hidle⟩ := load_by_layers "catalog.toml" hfile hsections hclear honce
  obtain ⟨-, herror, -⟩ := @load_by_layers content fields "catalog.toml" hfile hsections []
    (List.forall_mem_nil fun entry : String × String => Variables.IsClear entry.1)
    fun _ => Nat.zero_le 1
  constructor
  · rw [hidle [("MANGASHELF_CONFIG", "catalog.toml")] _ (by simpa using Or.inr hstray)
      (List.perm_append_singleton _ _).symm, hok]
    intro setting
    rw [Setting.effective, Setting.fromVariable?, ← List.head?_filter, hnamed]
    cases setting with
    | host => exact ⟨"0.0.0.0", rfl, haddress⟩
    | port => exact hport
    | timeoutSecs => exact htimeout
    | _ => rfl
  · -- Without the variables the text in the file stands, and it is no port.
    rw [herror]
    refine ⟨rfl, .port, ?_⟩
    rintro ⟨n, hn, -⟩
    cases hn

end Settings

end ComicCatalog
