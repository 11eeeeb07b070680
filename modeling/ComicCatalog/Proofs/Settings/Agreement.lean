import ComicCatalog.Proofs.Settings.Loading
import Mathlib

/-! # A file and its text

Settings are loaded from a file with its table laid over a table of all defaults, and from a
text with each missing value replaced by its default where it is read. Both give the same, since
every reader reads a value over its own defaults as it reads the value alone. This holds of single
settings, from there of sections, and so of all settings.
-/

namespace ComicCatalog

/-- The reader reads a value over the defaults as it reads the value alone, and it reads the
defaults as the value that stands for a missing part. -/
structure Absorbs {α : Type} (read : Tree → Option α) (defaults : Tree) (default : α)
    (IsProper : Tree → Prop) : Prop where
  alone : read defaults = some default
  under : ∀ {tree : Tree}, IsProper tree → read (defaults.merge tree) = read tree

namespace Absorbs

variable {α : Type} {read : Tree → Option α} {default : α}

/-- A single setting takes no table, and only tables are changed by what they are laid over. -/
theorem of_setting {value : Tree} (halone : read value = some default)
    (htable : ∀ fields, read (.table fields) = none) : Absorbs read value default fun _ => True where
  alone := halone
  under := by
    intro tree _
    have hlaid := Setting.laidOver_cases (some value) tree
    rw [Tree.laidOver] at hlaid
    rcases hlaid with hsame | ⟨fields, merged, rfl, hmerged⟩
    · rw [hsame]
    · rw [hmerged, htable, htable]

/-- What is no table stands as it is over a table of defaults. -/
theorem of_table {IsProper : Tree → Prop} {base : List (String × Tree)}
    (halone : read (.table base) = some default)
    (htable : ∀ {fields}, IsProper (.table fields) →
      read (.table (Tree.mergeFields base fields)) = read (.table fields)) :
    Absorbs read (.table base) default IsProper where
  alone := halone
  under := by
    intro tree hproper
    cases tree with
    | table fields =>
        rw [Tree.merge]
        exact htable hproper
    | _ => rfl

/-- A part is read from merged tables as from the later one. -/
theorem readPart_mergeFields {value : Tree} {IsProper : Tree → Prop}
    (habsorbs : Absorbs read value default IsProper) {base later : List (String × Tree)}
    {name : String} (hbase : base.lookup name = some value) (hlater : (later.map Prod.fst).Nodup)
    (hproper : ∀ tree, later.lookup name = some tree → IsProper tree) :
    readPart read default ((Tree.mergeFields base later).lookup name) =
      readPart read default (later.lookup name) := by
  rw [Tree.lookup_mergeFields base hlater, hbase]
  cases hfound : later.lookup name with
  | none => exact habsorbs.alone
  | some tree => exact habsorbs.under (hproper tree hfound)

/-- A single setting is read from merged sections as from the later one. -/
theorem readPart_section {value : Tree} (habsorbs : Absorbs read value default fun _ => True)
    {base later : List (String × Tree)} {name : String} (hbase : base.lookup name = some value)
    (hlater : (Tree.table later).HasDistinctNames) :
    readPart read default ((Tree.mergeFields base later).lookup name) =
      readPart read default (later.lookup name) :=
  habsorbs.readPart_mergeFields hbase hlater fun _ _ => trivial

end Absorbs

/-! ## Single settings -/

theorem Tree.absorbs_address : Absorbs Tree.address? (.text "0.0.0.0") (.v4 0) fun _ => True :=
  .of_setting (by cbv) fun _ => rfl

theorem Tree.absorbs_text (s : String) : Absorbs Tree.text? (.text s) s fun _ => True :=
  .of_setting rfl fun _ => rfl

theorem Tree.absorbs_texts : Absorbs Tree.texts? (.list []) [] fun _ => True :=
  .of_setting rfl fun _ => rfl

theorem Tree.absorbs_optionalText : Absorbs Tree.optionalText? .nothing none fun _ => True :=
  .of_setting rfl fun _ => rfl

/-- Words of any size. -/
theorem Tree.absorbs_natBelow {α : Type} (bound n : Nat) (ofNat : Nat → α) (hn : n < bound) :
    Absorbs (fun tree => (tree.natBelow? bound).map ofNat) (.integer n) (ofNat n) fun _ => True := by
  have halone : (Tree.integer n).natBelow? bound = some n := Tree.natBelow?_eq_some.mpr ⟨rfl, hn⟩
  exact .of_setting (by rw [halone, Option.map_some]) fun _ => rfl

/-! ## Sections -/

variable {base : List (String × Tree)}

theorem ServerSettings.absorbs (hhost : base.lookup "host" = some (.text "0.0.0.0"))
    (hport : base.lookup "port" = some (.integer 8080)) :
    Absorbs ofTree? (.table base) {} Tree.HasDistinctNames := by
  have halone : ofTree? (.table base) = some {} :=
    (ofTree?_eq_some hhost hport).mpr ⟨⟨_, rfl, by cbv⟩, rfl⟩
  refine .of_table halone fun {fields} hnames => ?_
  have hword : Absorbs (fun tree => (tree.natBelow? UInt16.size).map UInt16.ofNat) (.integer 8080) 8080
      fun _ => True := Tree.absorbs_natBelow _ 8080 _ (by decide)
  simp only [ofTree?, Tree.parts?, Option.bind_eq_bind, Option.bind_some,
    Tree.absorbs_address.readPart_section hhost hnames, hword.readPart_section hport hnames]

theorem DatabaseSettings.absorbs (hpath : base.lookup "path" = some (.text "mangashelf.db")) :
    Absorbs ofTree? (.table base) {} Tree.HasDistinctNames := by
  refine .of_table ((ofTree?_eq_some hpath).mpr rfl) fun {fields} hnames => ?_
  simp only [ofTree?, Tree.parts?, Option.bind_eq_bind, Option.bind_some,
    (Tree.absorbs_text _).readPart_section hpath hnames]

theorem CatalogSettings.absorbs (hpageSize : base.lookup "page_size" = some (.integer 1000)) :
    Absorbs ofTree? (.table base) {} Tree.HasDistinctNames := by
  refine .of_table ((ofTree?_eq_some hpageSize).mpr rfl) fun {fields} hnames => ?_
  have hword : Absorbs (fun tree => (tree.natBelow? UInt32.size).map UInt32.ofNat) (.integer 1000) 1000
      fun _ => True := Tree.absorbs_natBelow _ 1000 _ (by decide)
  simp only [ofTree?, Tree.parts?, Option.bind_eq_bind, Option.bind_some,
    hword.readPart_section hpageSize hnames]

theorem CorsSettings.absorbs (horigins : base.lookup "allowed_origins" = some (.list [])) :
    Absorbs ofTree? (.table base) {} Tree.HasDistinctNames := by
  refine .of_table ((ofTree?_eq_some horigins).mpr rfl) fun {fields} hnames => ?_
  simp only [ofTree?, Tree.parts?, Option.bind_eq_bind, Option.bind_some,
    Tree.absorbs_texts.readPart_section horigins hnames]

theorem ProxySettings.absorbs (htimeout : base.lookup "timeout_secs" = some (.integer 30))
    (hagent : base.lookup "user_agent" = some (.text "mangashelf/0.1.0"))
    (hreferer : base.lookup "referer" = some .nothing) :
    Absorbs ofTree? (.table base) {} Tree.HasDistinctNames := by
  refine .of_table ((ofTree?_eq_some htimeout hagent hreferer).mpr ⟨rfl, rfl, rfl⟩)
    fun {fields} hnames => ?_
  have hword : Absorbs (fun tree => (tree.natBelow? UInt64.size).map UInt64.ofNat) (.integer 30) 30
      fun _ => True := Tree.absorbs_natBelow _ 30 _ (by decide)
  simp only [ofTree?, Tree.parts?, Option.bind_eq_bind, Option.bind_some,
    hword.readPart_section htimeout hnames, (Tree.absorbs_text _).readPart_section hagent hnames,
    Tree.absorbs_optionalText.readPart_section hreferer hnames]

/-! ## All settings -/

namespace Settings

/-- Over the defaults, a table spells the settings that it spells alone. -/
theorem ofTree?_merge_defaults {fields : List (String × Tree)}
    (hnames : (fields.map Prod.fst).Nodup) (hinner : ∀ field ∈ fields, field.2.HasDistinctNames) :
    ofTree? ((toTree {}).merge (.table fields)) = ofTree? (.table fields) := by
  have hproper : ∀ name tree, fields.lookup name = some tree → tree.HasDistinctNames :=
    fun name tree htree => hinner _ ((lookup_eq_some_iff_mem hnames).mp htree)
  obtain ⟨base, hbase, -, hdefault⟩ := defaults_sectioned
  obtain ⟨server, hserver, hhost⟩ := Tree.inSection?_eq_some.mp (hdefault .host)
  obtain ⟨database, hdatabase, hpath⟩ := Tree.inSection?_eq_some.mp (hdefault .path)
  obtain ⟨catalog, hcatalog, hpageSize⟩ := Tree.inSection?_eq_some.mp (hdefault .pageSize)
  obtain ⟨cors, hcors, horigins⟩ := Tree.inSection?_eq_some.mp (hdefault .allowedOrigins)
  obtain ⟨proxy, hproxy, hreferer⟩ := Tree.inSection?_eq_some.mp (hdefault .referer)
  have hport := Tree.inSection?_of_lookup hserver _ ▸ hdefault .port
  have htimeout := Tree.inSection?_of_lookup hproxy _ ▸ hdefault .timeoutSecs
  have hagent := Tree.inSection?_of_lookup hproxy _ ▸ hdefault .userAgent
  have hserver' := (ServerSettings.absorbs hhost hport).readPart_mergeFields hserver hnames (hproper _)
  have hdatabase' := (DatabaseSettings.absorbs hpath).readPart_mergeFields hdatabase hnames (hproper _)
  have hcatalog' := (CatalogSettings.absorbs hpageSize).readPart_mergeFields hcatalog hnames (hproper _)
  have hcors' := (CorsSettings.absorbs horigins).readPart_mergeFields hcors hnames (hproper _)
  have hproxy' := (ProxySettings.absorbs htimeout hagent hreferer).readPart_mergeFields hproxy hnames
    (hproper _)
  simp only [Setting.sectionName] at hserver' hdatabase' hcatalog' hcors' hproxy'
  rw [hbase, Tree.merge]
  simp only [ofTree?, Tree.parts?, Option.bind_eq_bind, Option.bind_some, hserver', hdatabase',
    hcatalog', hcors', hproxy']

/-- With no settings variable, loading a file and reading its text agree, whatever the text holds:
both find it unreadable, or both give the same settings. -/
theorem load_agrees_with_ofText (path s : String) {environment : List (String × String)}
    (hforeign : ∀ entry ∈ environment, Variables.IsForeign entry.1) :
    load path (.text s) environment = .error .unreadable ∧ ofText s = .error .unreadable ∨
      ∃ settings, load path (.text s) environment = .ok settings ∧ ofText s = .ok settings := by
  rw [ofText]
  cases hread : Toml.read? s with
  | none =>
      left
      exact ⟨load_unreadable path hread, rfl⟩
  | some tree =>
      obtain ⟨fields, rfl, hnames, hinner⟩ := Toml.read?_distinct hread
      have hlayers : ((toTree {}).merge (.table fields)).merge (Variables.layer environment) =
          (toTree {}).merge (.table fields) := by
        rw [Variables.layer_of_isForeign hforeign]
        rfl
      rw [load_eq path hread, hlayers, ofTree?_merge_defaults hnames hinner, Option.bind_some]
      cases ofTree? (.table fields) with
      | none => exact Or.inl ⟨rfl, rfl⟩
      | some settings => exact Or.inr ⟨settings, rfl, rfl⟩

/-- A list in place of a section, a section with one setting, and a name of nothing; then a value
of the wrong kind. -/
theorem load_agrees_with_ofText_partial :
    let content :=
      "cors = [[\"https://a\"]]\n[proxy]\nuser_agent = \"reader/1\"\nrows = \"2\"\n"
    let settings : Settings :=
      { cors := { allowedOrigins := ["https://a"] }, proxy := { userAgent := "reader/1" } }
    let wrong := "[proxy]\ntimeout_secs = \"soon\"\n"
    load "catalog.toml" (.text content) [("HOME", "/root")] = .ok settings ∧
      load "catalog.toml" (.text wrong) [("HOME", "/root")] = .error .unreadable := by
  intro content settings wrong
  have hforeign : ∀ entry ∈ [("HOME", "/root")], Variables.IsForeign entry.1 := by
    rw [List.forall_mem_singleton, Variables.IsForeign, ← List.isPrefixOf_iff_prefix]
    cbv
    simp
  have hcontent : Toml.read? content = some (.table
      [("cors", .list [.list [.text "https://a"]]),
        ("proxy", .table [("user_agent", .text "reader/1"), ("rows", .text "2")])]) := by
    cbv
  have hsettings : ofText content = .ok settings := by
    rw [ofText, hcontent]
    rfl
  have hwrong : ofText wrong = .error .unreadable := by cbv
  constructor
  · rcases load_agrees_with_ofText "catalog.toml" content hforeign with ⟨-, htext⟩ | ⟨_, hload, htext⟩
    · rw [hsettings] at htext
      cases htext
    · rw [hload, ← htext, hsettings]
  · rcases load_agrees_with_ofText "catalog.toml" wrong hforeign with ⟨hload, -⟩ | ⟨_, -, htext⟩
    · exact hload
    · rw [hwrong] at htext
      cases htext

end Settings

end ComicCatalog
