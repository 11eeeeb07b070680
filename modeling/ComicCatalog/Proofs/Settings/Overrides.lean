import ComicCatalog.Proofs.Settings.Loading
import ComicCatalog.Proofs.Settings.Spelling
import Mathlib

/-! # Texts in variables

A variable that is given a text for a setting of that type. The value that it is read as is laid
into the section of the setting; every other setting stays, but where the section is a list in the
file, for then the list gives way to the table of the variable.
-/

namespace ComicCatalog

theorem Tree.lookup_mergeFields_single (base : List (String × Tree)) (name other : String)
    (value : Tree) : (mergeFields base [(name, value)]).lookup other =
      if other = name then some (laidOver (base.lookup name) value) else base.lookup other := by
  have hnodup : ([(name, value)].map Prod.fst).Nodup := List.nodup_singleton name
  rw [lookup_mergeFields base hnodup, List.lookup_cons]
  by_cases hname : other = name
  · simp [hname]
  · have hother : (other == name) = false := beq_eq_false_iff_ne.mpr hname
    simp [hname, hother]

namespace Variables

/-! ## The layer of one variable -/

/-- Nothing stands in the sections but one setting, if it has a value. -/
structure IsSole (setting : Setting) (value : Option Tree) (fields : List (String × Tree)) : Prop where
  names : (fields.map Prod.fst).Nodup
  sections : ∀ name ∈ Tree.sectionNames, fields.lookup name =
    if name = setting.sectionName then value.map fun tree => .table [(setting.name, tree)] else none

variable {setting : Setting} {fields : List (String × Tree)}

theorem isSole_nil (setting : Setting) : IsSole setting none [] where
  names := List.nodup_nil
  sections := by
    intro name _
    split <;> rfl

/-- A variable of no setting adds nothing to the sections. -/
theorem IsSole.extend_idle {value : Option Tree} (hsole : IsSole setting value fields)
    {entry : String × String} (hidle : IsForeign entry.1 ∨ IsStray entry.1) :
    IsSole setting value (extend fields entry) := by
  rcases path?_idle hidle with hnone | ⟨first, rest, hpath, hfirst⟩
  · have hextend : extend fields entry = fields := by rw [extend, hnone]
    rwa [hextend]
  · have hextend : extend fields entry =
        Tree.mergeFields fields [(first, Tree.atPath (Variables.value entry.2) rest)] := by
      rw [extend, hpath]
    rw [hextend]
    refine ⟨Tree.nodup_mergeFields hsole.names _, fun name hname => ?_⟩
    have hother : name ≠ first := fun hsame => hfirst (hsame ▸ hname)
    rw [Tree.lookup_mergeFields_single, if_neg hother]
    exact hsole.sections name hname

/-- The variable of the setting gives it its value. -/
theorem IsSole.extend_named (hsole : IsSole setting none fields) {entry : String × String}
    (hname : setting.IsNamedBy entry.1) :
    IsSole setting (some (value entry.2)) (extend fields entry) := by
  have hextend : extend fields entry = Tree.mergeFields fields
      [(setting.sectionName, .table [(setting.name, value entry.2)])] := by
    rw [extend, path?_of_isNamedBy hname]
    rfl
  rw [hextend]
  refine ⟨Tree.nodup_mergeFields hsole.names _, fun name hsection => ?_⟩
  have hbefore : ∀ name ∈ Tree.sectionNames, fields.lookup name = none := by
    intro name hsection
    rw [hsole.sections name hsection]
    split <;> rfl
  rw [Tree.lookup_mergeFields_single, hbefore name hsection, hbefore _ setting.sectionName_mem]
  rfl

theorem IsSole.foldl_idle {value : Option Tree} {entries : List (String × String)}
    (hidle : ∀ entry ∈ entries, IsForeign entry.1 ∨ IsStray entry.1)
    (hsole : IsSole setting value fields) : IsSole setting value (entries.foldl extend fields) := by
  induction entries generalizing fields with
  | nil => exact hsole
  | cons entry rest ih =>
      obtain ⟨hentry, hrest⟩ := List.forall_mem_cons.mp hidle
      exact ih hrest (hsole.extend_idle hentry)

/-- Among variables of no setting, that of the setting makes the whole layer. -/
theorem layer_of_sole {environment others : List (String × String)} {name v : String}
    (hothers : ∀ entry ∈ others, IsForeign entry.1 ∨ IsStray entry.1)
    (hname : setting.IsNamedBy name) (henvironment : environment.Perm ((name, v) :: others)) :
    ∃ fields, layer environment = .table fields ∧ IsSole setting (some (value v)) fields := by
  have hperm : (sorted environment).Perm ((name, v) :: others) :=
    (List.mergeSort_perm _ _).trans henvironment
  obtain ⟨before, after, hsorted⟩ := List.append_of_mem (hperm.mem_iff.mpr List.mem_cons_self)
  have hrest : (before ++ after).Perm others := by
    rw [hsorted] at hperm
    exact (List.perm_middle.symm.trans hperm).cons_inv
  have hidle : ∀ entry ∈ before ++ after, IsForeign entry.1 ∨ IsStray entry.1 :=
    fun entry hentry => hothers entry (hrest.mem_iff.mp hentry)
  obtain ⟨hbefore, hafter⟩ := List.forall_mem_append.mp hidle
  refine ⟨_, layer_eq environment, ?_⟩
  have hstart := (isSole_nil setting).foldl_idle hbefore
  have hgiven := hstart.extend_named (show setting.IsNamedBy (name, v).1 from hname)
  rw [hsorted, List.foldl_append, List.foldl_cons]
  exact hgiven.foldl_idle hafter

end Variables

/-! ## Settings laid into sections -/

theorem Tree.text?_laidOver (old : Option Tree) (value : Tree) :
    (laidOver old value).text? = value.text? := by
  rcases Setting.laidOver_cases old value with hsame | ⟨fields, merged, rfl, hmerged⟩
  · rw [hsame]
  · rw [hmerged]
    rfl

/-- A path laid into the database section is the path of the section. -/
theorem DatabaseSettings.ofTree?_laidOver (old : Option Tree) (value : Tree) :
    ofTree? (Tree.laidOver old (.table [("path", value)])) =
      value.text?.map fun path => { path } := by
  have hread : ∀ {inner : List (String × Tree)} {found : Tree}, inner.lookup "path" = some found →
      ofTree? (.table inner) = found.text?.map fun path => { path } := by
    intro inner found hfound
    simp only [ofTree?, Tree.parts?, readPart, hfound, Option.bind_eq_bind, Option.bind_some]
    cases found.text? <;> rfl
  have halone : ofTree? (.table [("path", value)]) = value.text?.map fun path => { path } := hread rfl
  cases old with
  | none => exact halone
  | some old =>
      cases old with
      | table inner =>
          rw [Tree.laidOver, Tree.merge, hread (by
            rw [Tree.lookup_mergeFields_single, if_pos rfl]), Tree.text?_laidOver]
      | _ => exact halone

/-- What a proxy section keeps when a variable is laid over it: all of a table, nothing of a
list. -/
def ProxySettings.keptUnder (proxy : ProxySettings) : Option Tree → ProxySettings
  | some (.list _) => {}
  | _ => proxy

/-- A user agent laid into a proxy section is that of the section. -/
theorem ProxySettings.ofTree?_laidOver {old : Tree} {proxy : ProxySettings}
    (hold : ofTree? old = some proxy) (value : Tree) :
    ofTree? (Tree.laidOver (some old) (.table [("user_agent", value)])) =
      value.text?.map fun userAgent => { proxy.keptUnder (some old) with userAgent } := by
  have halone : ofTree? (.table [("user_agent", value)]) =
      value.text?.map fun userAgent => { ({} : ProxySettings) with userAgent } := by
    have htimeout : [("user_agent", value)].lookup "timeout_secs" = none := rfl
    have hagent : [("user_agent", value)].lookup "user_agent" = some value := rfl
    have hreferer : [("user_agent", value)].lookup "referer" = none := rfl
    simp only [ofTree?, Tree.parts?, readPart, htimeout, hagent, hreferer, Option.bind_eq_bind,
      Option.bind_some]
    cases value.text? <;> rfl
  cases old with
  | table inner =>
      simp only [ofTree?, Tree.parts?, Option.bind_eq_bind, Option.bind_some,
        Option.bind_eq_some_iff, Option.some.injEq] at hold
      obtain ⟨timeout, htimeout, agent, -, referer, hreferer, rfl⟩ := hold
      have hagent : readPart Tree.text? ({} : ProxySettings).userAgent
          ((Tree.mergeFields inner [("user_agent", value)]).lookup "user_agent") = value.text? := by
        rw [Tree.lookup_mergeFields_single, if_pos rfl]
        exact Tree.text?_laidOver _ _
      have hother : ∀ name, name ≠ "user_agent" →
          (Tree.mergeFields inner [("user_agent", value)]).lookup name = inner.lookup name := by
        intro name hname
        rw [Tree.lookup_mergeFields_single, if_neg hname]
      rw [Tree.laidOver, Tree.merge]
      simp only [ofTree?, Tree.parts?, Option.bind_eq_bind, Option.bind_some, hagent,
        hother "timeout_secs" (by decide), hother "referer" (by decide), htimeout, hreferer]
      cases value.text? <;> rfl
  | list items => exact halone
  | moment =>
      cases hold
      exact halone
  | _ => cases hold

/-- The settings of a file with another text for the database path or the user agent. -/
def Setting.overridden (setting : Setting) (s : String) (fields : List (String × Tree))
    (settings : Settings) : Settings :=
  match setting with
  | .path => { settings with database := { path := s } }
  | .userAgent =>
      let kept := settings.proxy.keptUnder (fields.lookup "proxy")
      { settings with proxy := { kept with userAgent := s } }
  | _ => settings

namespace Settings

/-- The sections of settings are read one by one. -/
theorem ofTree?_table_eq_some {fields : List (String × Tree)} {settings : Settings} :
    ofTree? (.table fields) = some settings ↔
      readPart ServerSettings.ofTree? {} (fields.lookup "server") = some settings.server ∧
      readPart DatabaseSettings.ofTree? {} (fields.lookup "database") = some settings.database ∧
      readPart CatalogSettings.ofTree? {} (fields.lookup "catalog") = some settings.catalog ∧
      readPart CorsSettings.ofTree? {} (fields.lookup "cors") = some settings.cors ∧
      readPart ProxySettings.ofTree? {} (fields.lookup "proxy") = some settings.proxy := by
  simp only [ofTree?, Tree.parts?, Option.bind_eq_bind, Option.bind_some, Option.bind_eq_some_iff,
    Option.some.injEq]
  constructor
  · rintro ⟨server, hserver, database, hdatabase, catalog, hcatalog, cors, hcors, proxy, hproxy, rfl⟩
    exact ⟨hserver, hdatabase, hcatalog, hcors, hproxy⟩
  · rintro ⟨hserver, hdatabase, hcatalog, hcors, hproxy⟩
    exact ⟨_, hserver, _, hdatabase, _, hcatalog, _, hcors, _, hproxy, rfl⟩

variable {base named : List (String × Tree)} {settings : Settings} {value : Tree}

/-- Only the section of the setting changes, by what is laid over it. -/
theorem lookup_mergeFields_sole {setting : Setting}
    (hsole : Variables.IsSole setting (some value) named) {name : String}
    (hname : name ∈ Tree.sectionNames) :
    (Tree.mergeFields base named).lookup name =
      if name = setting.sectionName then
        some (Tree.laidOver (base.lookup name) (.table [(setting.name, value)]))
      else base.lookup name := by
  rw [Tree.lookup_mergeFields base hsole.names, hsole.sections name hname]
  split <;> rfl

theorem lookup_mergeFields_other {setting : Setting}
    (hsole : Variables.IsSole setting (some value) named) (name : String)
    (hname : name ∈ Tree.sectionNames) (hother : name ≠ setting.sectionName) :
    (Tree.mergeFields base named).lookup name = base.lookup name := by
  rw [lookup_mergeFields_sole hsole hname, if_neg hother]

theorem ofTree?_override_path (hbase : ofTree? (.table base) = some settings)
    (hsole : Variables.IsSole .path (some value) named) :
    ofTree? (.table (Tree.mergeFields base named)) =
      value.text?.map fun path => { settings with database := { path } } := by
  obtain ⟨hserver, -, hcatalog, hcors, hproxy⟩ := ofTree?_table_eq_some.mp hbase
  have hdatabase := @lookup_mergeFields_sole base named value .path hsole "database" (by decide)
  have hother := @lookup_mergeFields_other base named value _ hsole
  rw [Setting.sectionName, if_pos rfl] at hdatabase
  simp only [ofTree?, Tree.parts?, Option.bind_eq_bind, Option.bind_some, hdatabase,
    hother "server" (by decide) (by decide), hother "catalog" (by decide) (by decide),
    hother "cors" (by decide) (by decide), hother "proxy" (by decide) (by decide),
    hserver, hcatalog, hcors, hproxy]
  rw [readPart, Setting.name, DatabaseSettings.ofTree?_laidOver]
  cases value.text? <;> rfl

theorem ofTree?_override_userAgent (hbase : ofTree? (.table base) = some settings) {old : Tree}
    (hold : base.lookup "proxy" = some old)
    (hsole : Variables.IsSole .userAgent (some value) named) :
    ofTree? (.table (Tree.mergeFields base named)) = value.text?.map fun userAgent =>
      { settings with proxy := { settings.proxy.keptUnder (some old) with userAgent } } := by
  obtain ⟨hserver, hdatabase, hcatalog, hcors, hproxy⟩ := ofTree?_table_eq_some.mp hbase
  have hchanged := @lookup_mergeFields_sole base named value .userAgent hsole "proxy" (by decide)
  have hother := @lookup_mergeFields_other base named value _ hsole
  rw [Setting.sectionName, if_pos rfl, hold] at hchanged
  rw [hold, readPart] at hproxy
  simp only [ofTree?, Tree.parts?, Option.bind_eq_bind, Option.bind_some, hchanged,
    hother "server" (by decide) (by decide), hother "database" (by decide) (by decide),
    hother "catalog" (by decide) (by decide), hother "cors" (by decide) (by decide),
    hserver, hdatabase, hcatalog, hcors]
  rw [readPart, Setting.name, ProxySettings.ofTree?_laidOver hproxy]
  cases value.text? <;> rfl

/-- Over the default proxy section a section of the file stays what it is, a table or a list. -/
theorem exists_proxy {defaults fields : List (String × Tree)} (hnames : (fields.map Prod.fst).Nodup)
    {tree : Tree} (hdefault : Tree.inSection? defaults "proxy" "user_agent" = some tree) :
    ∃ old, (Tree.mergeFields defaults fields).lookup "proxy" = some old ∧
      ∀ proxy : ProxySettings, proxy.keptUnder (some old) = proxy.keptUnder (fields.lookup "proxy") := by
  obtain ⟨inner, hinner, -⟩ := Tree.inSection?_eq_some.mp hdefault
  rw [Tree.lookup_mergeFields defaults hnames, hinner]
  cases hproxy : fields.lookup "proxy" with
  | none => exact ⟨.table inner, rfl, fun _ => rfl⟩
  | some later =>
      refine ⟨_, rfl, fun proxy => ?_⟩
      cases later <;> rfl

section Override

variable {path content name v : String} {fields : List (String × Tree)} {base : Settings}
  {setting : Setting} {environment others : List (String × String)}
  (hfile : Toml.read? content = some (.table fields))
  (hbase : load path (.text content) [] = .ok base)
  (hsetting : setting = .path ∨ setting = .userAgent) (hname : setting.IsNamedBy name)
  (hothers : ∀ entry ∈ others, Variables.IsForeign entry.1 ∨ Variables.IsStray entry.1)
  (henvironment : environment.Perm ((name, v) :: others))

include hfile hbase hsetting hname hothers henvironment

/-- Where the value of the variable is a text, it is the setting; otherwise nothing is loaded. -/
theorem load_override : load path (.text content) environment =
    ((Variables.value v).text?.map fun s => setting.overridden s fields base).elim
      (.error .unreadable) .ok := by
  obtain ⟨named, hlayer, hsole⟩ := Variables.layer_of_sole hothers hname henvironment
  obtain ⟨defaults, hdefaults, -, hdefault⟩ := defaults_sectioned
  obtain ⟨_, hfields, hnames, -⟩ := Toml.read?_distinct hfile
  cases hfields
  have hread : ofTree? (.table (Tree.mergeFields defaults fields)) = some base := by
    have hlayer : Variables.layer [] = .table [] :=
      Variables.layer_of_isForeign (List.forall_mem_nil _)
    rw [load_eq path hfile, hdefaults, hlayer, Tree.merge, Tree.merge, Tree.mergeFields] at hbase
    cases hfound : ofTree? (.table (Tree.mergeFields defaults fields)) with
    | none => simp [hfound] at hbase
    | some settings =>
        rw [hfound] at hbase
        cases hbase
        rfl
  rw [load_eq path hfile, hdefaults, hlayer, Tree.merge, Tree.merge]
  rcases hsetting with rfl | rfl
  · rw [ofTree?_override_path hread hsole]
    rfl
  · obtain ⟨old, hold, hkept⟩ := exists_proxy hnames (hdefault .userAgent)
    rw [ofTree?_override_userAgent hread hold hsole, hkept]
    rfl

end Override

/-- Over a file that can be loaded, and beside variables of no setting: a text without blanks
around it, in the variable of the database path or of the user agent, is that setting as it stands,
unless it spells a value of another kind or is quoted. What is quoted loses its quotes, and with a
value of another kind nothing is loaded. The other settings stay, except that a proxy section which
the file writes as a list gives way to the user agent alone. -/
theorem load_with_text {path content name v : String} {fields : List (String × Tree)}
    {base : Settings} {setting : Setting} {environment others : List (String × String)}
    (hfile : Toml.read? content = some (.table fields))
    (hbase : load path (.text content) [] = .ok base)
    (hsetting : setting = .path ∨ setting = .userAgent) (hname : setting.IsNamedBy name)
    (hothers : ∀ entry ∈ others, Variables.IsForeign entry.1 ∨ Variables.IsStray entry.1)
    (henvironment : environment.Perm ((name, v) :: others)) (htrim : Text.trim v = v) :
    (¬Variables.SpellsOther v.toList → (∀ s, ¬Variables.Quotes v.toList s) →
      load path (.text content) environment = .ok (setting.overridden v fields base)) ∧
    (∀ s, Variables.Quotes v.toList s → s ≠ v ∧
      load path (.text content) environment = .ok (setting.overridden s fields base)) ∧
    (Variables.SpellsOther v.toList →
      load path (.text content) environment = .error .unreadable) := by
  have hload := load_override hfile hbase hsetting hname hothers henvironment
  refine ⟨fun hother hquotes => ?_, fun s hquotes => ⟨?_, ?_⟩, fun hother => ?_⟩
  · rw [hload, Variables.value_of_plain htrim hother hquotes]
    rfl
  · rintro rfl
    have hlength := hquotes.length_lt
    rw [String.length_toList] at hlength
    exact lt_irrefl _ hlength
  · rw [hload, Variables.value_of_quotes htrim hquotes]
    rfl
  · have hnone : (Variables.value v).text? = none :=
      Option.eq_none_iff_forall_ne_some.mpr fun s hs =>
        Variables.value_of_spellsOther htrim hother s (Tree.text?_eq_some.mp hs)
    rw [hload, hnone]
    rfl

/-- A path that is a numeral cannot be given as it stands. -/
theorem load_with_text_numeral :
    load "catalog.toml" (.text "") [] = .ok {} ∧ Text.trim "5" = "5" ∧
      load "catalog.toml" (.text "") [("MANGASHELF_DATABASE__PATH", "5")] = .error .unreadable := by
  have hfile : Toml.read? "" = some (.table []) := by cbv
  have hdefault : load "catalog.toml" (.text "") [] = .ok {} := by
    rw [load_eq "catalog.toml" hfile, Variables.layer_of_isForeign (List.forall_mem_nil _)]
    cbv
  have hvalue : Variables.value "5" = .integer 5 := by cbv
  have hname : Setting.path.IsNamedBy "MANGASHELF_DATABASE__PATH" := rfl
  refine ⟨hdefault, by cbv, ?_⟩
  rw [load_override hfile hdefault (Or.inl rfl) hname (List.forall_mem_nil _) (List.Perm.refl _), hvalue]
  rfl

/-- A user agent as it stands, and the numeral as a path once it is quoted. -/
theorem load_with_text_quoted :
    let content := "[database]\npath = \"a.db\"\n"
    let environment := [("HOME", "/root"), ("MANGASHELF_PROXY__USER_AGENT", "reader/2")]
    load "catalog.toml" (.text content) environment =
      .ok { database := { path := "a.db" }, proxy := { userAgent := "reader/2" } } ∧
    load "catalog.toml" (.text content) [("MANGASHELF_DATABASE__PATH", "\"5\"")] =
      .ok { database := { path := "5" } } := by
  intro content environment
  let base : Settings := { database := { path := "a.db" } }
  have hfile : Toml.read? content =
      some (.table [("database", .table [("path", .text "a.db")])]) := by
    cbv
  have hbase : load "catalog.toml" (.text content) [] = .ok base := by
    rw [load_eq "catalog.toml" hfile, Variables.layer_of_isForeign (List.forall_mem_nil _)]
    cbv
  have hothers : ∀ entry ∈ [("HOME", "/root")],
      Variables.IsForeign entry.1 ∨ Variables.IsStray entry.1 := by
    rw [List.forall_mem_singleton, Variables.IsForeign, ← List.isPrefixOf_iff_prefix]
    left
    cbv
    simp
  have hagent : Text.trim "reader/2" = "reader/2" := by cbv
  have hquoted : Text.trim "\"5\"" = "\"5\"" := by cbv
  constructor
  · obtain ⟨hother, hquotes⟩ := (Variables.value_eq_self_iff hagent).mp (by cbv)
    exact (load_with_text hfile hbase (Or.inr rfl) rfl hothers (List.Perm.swap _ _ _) hagent).1
      hother hquotes
  · exact ((load_with_text hfile hbase (Or.inl rfl) rfl (List.forall_mem_nil _) (List.Perm.refl _)
      hquoted).2.1 "5" (.line rfl)).2

end Settings

end ComicCatalog
