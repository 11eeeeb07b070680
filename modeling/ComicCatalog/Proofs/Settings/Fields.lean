import ComicCatalog.Proofs.Settings.Layers
import ComicCatalog.Settings.Reading

/-! # Settings one by one

A tree spells settings exactly if each of its values is of the type that its setting takes,
and each setting then has the value that is spelt.
-/

namespace ComicCatalog

/-- The settings of the service. -/
inductive Setting
  | host
  | port
  | path
  | pageSize
  | allowedOrigins
  | timeoutSecs
  | userAgent
  | referer
  deriving DecidableEq

namespace Setting

def all : List Setting :=
  [.host, .port, .path, .pageSize, .allowedOrigins, .timeoutSecs, .userAgent, .referer]

theorem mem_all (setting : Setting) : setting ∈ all := by
  cases setting <;> decide

/-- The section that a setting stands in. -/
def sectionName : Setting → String
  | .host | .port => "server"
  | .path => "database"
  | .pageSize => "catalog"
  | .allowedOrigins => "cors"
  | .timeoutSecs | .userAgent | .referer => "proxy"

/-- The name of a setting in its section. -/
def name : Setting → String
  | .host => "host"
  | .port => "port"
  | .path => "path"
  | .pageSize => "page_size"
  | .allowedOrigins => "allowed_origins"
  | .timeoutSecs => "timeout_secs"
  | .userAgent => "user_agent"
  | .referer => "referer"

theorem name_injective : Function.Injective name := by
  have hnames : ∀ setting ∈ all, ∀ other ∈ all, setting.name = other.name → setting = other := by
    decide
  exact fun setting other => hnames setting setting.mem_all other other.mem_all

theorem sectionName_mem (setting : Setting) : setting.sectionName ∈ Tree.sectionNames := by
  cases setting <;> decide

/-- The value of a setting that nothing sets. -/
def default : Setting → Tree
  | .host => .text "0.0.0.0"
  | .port => .integer 8080
  | .path => .text "mangashelf.db"
  | .pageSize => .integer 1000
  | .allowedOrigins => .list []
  | .timeoutSecs => .integer 30
  | .userAgent => .text "mangashelf/0.1.0"
  | .referer => .nothing

/-- The tree is of the type that the setting takes. -/
def HasType : Setting → Tree → Prop
  | .host, tree => ∃ s address, tree = .text s ∧ Address.ofText? s = some address
  | .port, tree => ∃ n : Nat, tree = .integer n ∧ n < UInt16.size
  | .pageSize, tree => ∃ n : Nat, tree = .integer n ∧ n < UInt32.size
  | .timeoutSecs, tree => ∃ n : Nat, tree = .integer n ∧ n < UInt64.size
  | .path, tree | .userAgent, tree => ∃ s, tree = .text s
  | .referer, tree => tree = .nothing ∨ ∃ s, tree = .text s
  | .allowedOrigins, tree => ∃ texts : List String, tree = .list (texts.map .text)

/-- The setting has the value of the tree. -/
def Holds : Setting → Tree → Settings → Prop
  | .host, tree, settings => ∃ s, tree = .text s ∧ Address.ofText? s = some settings.server.host
  | .port, tree, settings => tree = .integer settings.server.port.toNat
  | .pageSize, tree, settings => tree = .integer settings.catalog.pageSize.toNat
  | .timeoutSecs, tree, settings => tree = .integer settings.proxy.timeoutSecs.toNat
  | .path, tree, settings => tree = .text settings.database.path
  | .userAgent, tree, settings => tree = .text settings.proxy.userAgent
  | .referer, tree, settings => tree = settings.proxy.referer.elim .nothing .text
  | .allowedOrigins, tree, settings => tree = .list (settings.cors.allowedOrigins.map .text)

end Setting

/-! ## Readers -/

namespace Tree

theorem text?_eq_some {tree : Tree} {s : String} : tree.text? = some s ↔ tree = .text s := by
  cases tree <;> simp [text?]

theorem address?_eq_some {tree : Tree} {address : Address} :
    tree.address? = some address ↔ ∃ s, tree = .text s ∧ Address.ofText? s = some address := by
  rw [address?, Option.bind_eq_some_iff]
  simp only [text?_eq_some]

theorem optionalText?_eq_some {tree : Tree} {found : Option String} :
    tree.optionalText? = some found ↔ tree = found.elim .nothing .text := by
  cases tree <;> cases found <;> simp [optionalText?, text?]

theorem texts?_eq_some {tree : Tree} {texts : List String} :
    tree.texts? = some texts ↔ tree = .list (texts.map .text) := by
  cases tree with
  | list items =>
      rw [texts?, list.injEq]
      induction items generalizing texts with
      | nil => cases texts <;> simp
      | cons item rest ih =>
          cases texts with
          | nil => simp [List.mapM_cons, Option.bind_eq_some_iff]
          | cons first others =>
              simp [List.mapM_cons, Option.bind_eq_some_iff, text?_eq_some, ih]
  | _ => simp [texts?]

theorem natBelow?_eq_some {tree : Tree} {bound n : Nat} :
    tree.natBelow? bound = some n ↔ tree = .integer n ∧ n < bound := by
  cases tree with
  | integer m =>
      simp only [natBelow?, Option.ite_none_right_eq_some, Option.some.injEq, integer.injEq]
      omega
  | _ => simp [natBelow?]

/-- Words of any size are spelt by the numbers that they hold. -/
theorem map_natBelow?_eq_some {α : Type} {bound : Nat} {ofNat : Nat → α} {toNat : α → Nat}
    (hto : ∀ n < bound, toNat (ofNat n) = n) (hof : ∀ x, ofNat (toNat x) = x)
    (hbound : ∀ x, toNat x < bound) {tree : Tree} {x : α} :
    (tree.natBelow? bound).map ofNat = some x ↔ tree = .integer (toNat x) := by
  simp only [Option.map_eq_some_iff, natBelow?_eq_some]
  constructor
  · rintro ⟨n, ⟨rfl, hn⟩, rfl⟩
    rw [hto n hn]
  · rintro rfl
    exact ⟨toNat x, ⟨rfl, hbound x⟩, hof x⟩

end Tree

/-! ## Sections -/

variable {inner : List (String × Tree)}

theorem ServerSettings.ofTree?_eq_some {host port : Tree} (hhost : inner.lookup "host" = some host)
    (hport : inner.lookup "port" = some port) {server : ServerSettings} :
    ofTree? (.table inner) = some server ↔
      (∃ s, host = .text s ∧ Address.ofText? s = some server.host) ∧
      port = .integer server.port.toNat := by
  have hword := @Tree.map_natBelow?_eq_some UInt16 UInt16.size UInt16.ofNat UInt16.toNat
    (fun _ => UInt16.toNat_ofNat_of_lt) (fun _ => UInt16.ofNat_toNat) UInt16.toNat_lt_size port
  rw [← Tree.address?_eq_some, ← hword]
  simp only [ofTree?, Tree.parts?, readPart, hhost, hport, Option.bind_eq_bind,
    Option.bind_some, Option.bind_eq_some_iff, Option.some.injEq]
  constructor
  · rintro ⟨a, ha, b, hb, rfl⟩
    exact ⟨ha, hb⟩
  · rintro ⟨ha, hb⟩
    exact ⟨_, ha, _, hb, rfl⟩

theorem DatabaseSettings.ofTree?_eq_some {path : Tree} (hpath : inner.lookup "path" = some path)
    {database : DatabaseSettings} :
    ofTree? (.table inner) = some database ↔ path = .text database.path := by
  rw [← Tree.text?_eq_some]
  simp only [ofTree?, Tree.parts?, readPart, hpath, Option.bind_eq_bind,
    Option.bind_some, Option.bind_eq_some_iff, Option.some.injEq]
  constructor
  · rintro ⟨a, ha, rfl⟩
    exact ha
  · exact fun ha => ⟨_, ha, rfl⟩

theorem CatalogSettings.ofTree?_eq_some {pageSize : Tree}
    (hpageSize : inner.lookup "page_size" = some pageSize) {catalog : CatalogSettings} :
    ofTree? (.table inner) = some catalog ↔ pageSize = .integer catalog.pageSize.toNat := by
  have hword := @Tree.map_natBelow?_eq_some UInt32 UInt32.size UInt32.ofNat UInt32.toNat
    (fun _ => UInt32.toNat_ofNat_of_lt) (fun _ => UInt32.ofNat_toNat) UInt32.toNat_lt_size pageSize
  rw [← hword]
  simp only [ofTree?, Tree.parts?, readPart, hpageSize, Option.bind_eq_bind,
    Option.bind_some, Option.bind_eq_some_iff, Option.some.injEq]
  constructor
  · rintro ⟨a, ha, rfl⟩
    exact ha
  · exact fun ha => ⟨_, ha, rfl⟩

theorem CorsSettings.ofTree?_eq_some {origins : Tree}
    (horigins : inner.lookup "allowed_origins" = some origins) {cors : CorsSettings} :
    ofTree? (.table inner) = some cors ↔ origins = .list (cors.allowedOrigins.map .text) := by
  rw [← Tree.texts?_eq_some]
  simp only [ofTree?, Tree.parts?, readPart, horigins, Option.bind_eq_bind,
    Option.bind_some, Option.bind_eq_some_iff, Option.some.injEq]
  constructor
  · rintro ⟨a, ha, rfl⟩
    exact ha
  · exact fun ha => ⟨_, ha, rfl⟩

theorem ProxySettings.ofTree?_eq_some {timeout agent referer : Tree}
    (htimeout : inner.lookup "timeout_secs" = some timeout)
    (hagent : inner.lookup "user_agent" = some agent)
    (hreferer : inner.lookup "referer" = some referer) {proxy : ProxySettings} :
    ofTree? (.table inner) = some proxy ↔ timeout = .integer proxy.timeoutSecs.toNat ∧
      agent = .text proxy.userAgent ∧ referer = proxy.referer.elim .nothing .text := by
  have hword := @Tree.map_natBelow?_eq_some UInt64 UInt64.size UInt64.ofNat UInt64.toNat
    (fun _ => UInt64.toNat_ofNat_of_lt) (fun _ => UInt64.ofNat_toNat) UInt64.toNat_lt_size timeout
  rw [← hword, ← Tree.text?_eq_some, ← Tree.optionalText?_eq_some]
  simp only [ofTree?, Tree.parts?, readPart, htimeout, hagent, hreferer, Option.bind_eq_bind,
    Option.bind_some, Option.bind_eq_some_iff, Option.some.injEq]
  constructor
  · rintro ⟨a, ha, b, hb, c, hc, rfl⟩
    exact ⟨ha, hb, hc⟩
  · rintro ⟨ha, hb, hc⟩
    exact ⟨_, ha, _, hb, _, hc, rfl⟩

/-! ## All settings -/

namespace Setting

theorem forall_iff {p : Setting → Prop} : (∀ setting, p setting) ↔
    p .host ∧ p .port ∧ p .path ∧ p .pageSize ∧ p .allowedOrigins ∧ p .timeoutSecs ∧ p .userAgent ∧
      p .referer := by
  constructor
  · exact fun hall => ⟨hall _, hall _, hall _, hall _, hall _, hall _, hall _, hall _⟩
  · rintro ⟨_, _, _, _, _, _, _, _⟩ setting
    cases setting <;> assumption

variable {value : Setting → Tree}

theorem Holds.hasType {setting : Setting} {tree : Tree} {settings : Settings}
    (hholds : setting.Holds tree settings) : setting.HasType tree := by
  cases setting with
  | host =>
      obtain ⟨s, htree, haddress⟩ := hholds
      exact ⟨s, _, htree, haddress⟩
  | port => exact ⟨_, hholds, UInt16.toNat_lt_size _⟩
  | pageSize => exact ⟨_, hholds, UInt32.toNat_lt_size _⟩
  | timeoutSecs => exact ⟨_, hholds, UInt64.toNat_lt_size _⟩
  | path => exact ⟨_, hholds⟩
  | userAgent => exact ⟨_, hholds⟩
  | allowedOrigins => exact ⟨_, hholds⟩
  | referer =>
      cases hreferer : settings.proxy.referer with
      | none => exact Or.inl (by rw [show tree = _ from hholds, hreferer]; rfl)
      | some s => exact Or.inr ⟨s, by rw [show tree = _ from hholds, hreferer]; rfl⟩

/-- Values of the right types are the values of some settings. -/
theorem exists_holds (htypes : ∀ setting : Setting, setting.HasType (value setting)) :
    ∃ settings, ∀ setting : Setting, setting.Holds (value setting) settings := by
  obtain ⟨s, host, hhost, haddress⟩ := htypes .host
  obtain ⟨port, hport, hportSize⟩ := htypes .port
  obtain ⟨path, hpath⟩ := htypes .path
  obtain ⟨pageSize, hpageSize, hpageSizeSize⟩ := htypes .pageSize
  obtain ⟨origins, horigins⟩ := htypes .allowedOrigins
  obtain ⟨timeout, htimeout, htimeoutSize⟩ := htypes .timeoutSecs
  obtain ⟨agent, hagent⟩ := htypes .userAgent
  obtain ⟨referer, hreferer⟩ : ∃ referer : Option String, value .referer = referer.elim .nothing .text := by
    rcases htypes .referer with hnothing | ⟨s, hs⟩
    · exact ⟨none, hnothing⟩
    · exact ⟨some s, hs⟩
  refine ⟨⟨⟨host, .ofNat port⟩, ⟨path⟩, ⟨.ofNat pageSize⟩, ⟨origins⟩, ⟨.ofNat timeout, agent, referer⟩⟩,
    forall_iff.mpr ⟨⟨s, hhost, haddress⟩, ?_, hpath, ?_, horigins, ?_, hagent, hreferer⟩⟩
  · show _ = Tree.integer (UInt16.ofNat port).toNat
    have hword : (UInt16.ofNat port).toNat = port := UInt16.toNat_ofNat_of_lt hportSize
    rw [hport, hword]
  · show _ = Tree.integer (UInt32.ofNat pageSize).toNat
    have hword : (UInt32.ofNat pageSize).toNat = pageSize := UInt32.toNat_ofNat_of_lt hpageSizeSize
    rw [hpageSize, hword]
  · show _ = Tree.integer (UInt64.ofNat timeout).toNat
    have hword : (UInt64.ofNat timeout).toNat = timeout := UInt64.toNat_ofNat_of_lt htimeoutSize
    rw [htimeout, hword]

end Setting

namespace Settings

variable {fields : List (String × Tree)} {value : Setting → Tree}

/-- A tree in which every setting is there spells the settings that have its values. -/
theorem ofTree?_eq_some
    (hvalue : ∀ setting : Setting,
      Tree.inSection? fields setting.sectionName setting.name = some (value setting))
    {settings : Settings} :
    ofTree? (.table fields) = some settings ↔
      ∀ setting : Setting, setting.Holds (value setting) settings := by
  have hinner : ∀ setting : Setting, ∀ {inner},
      fields.lookup setting.sectionName = some (.table inner) →
        inner.lookup setting.name = some (value setting) :=
    fun setting inner hsection => Tree.inSection?_of_lookup hsection _ ▸ hvalue setting
  have hsection : ∀ setting : Setting, ∃ inner,
      fields.lookup setting.sectionName = some (.table inner) := fun setting =>
    (Tree.inSection?_eq_some.mp (hvalue setting)).imp fun _ hlookup => hlookup.1
  -- One setting of each section tells that the section is there.
  obtain ⟨server, hserver⟩ := hsection .host
  obtain ⟨database, hdatabase⟩ := hsection .path
  obtain ⟨catalog, hcatalog⟩ := hsection .pageSize
  obtain ⟨cors, hcors⟩ := hsection .allowedOrigins
  obtain ⟨proxy, hproxy⟩ := hsection .referer
  have hserver' := @ServerSettings.ofTree?_eq_some server _ _ (hinner .host hserver)
    (hinner .port hserver)
  have hdatabase' := @DatabaseSettings.ofTree?_eq_some database _ (hinner .path hdatabase)
  have hcatalog' := @CatalogSettings.ofTree?_eq_some catalog _ (hinner .pageSize hcatalog)
  have hcors' := @CorsSettings.ofTree?_eq_some cors _ (hinner .allowedOrigins hcors)
  have hproxy' := @ProxySettings.ofTree?_eq_some proxy _ _ _ (hinner .timeoutSecs hproxy)
    (hinner .userAgent hproxy) (hinner .referer hproxy)
  simp only [Setting.sectionName] at hserver hdatabase hcatalog hcors hproxy
  simp only [ofTree?, Tree.parts?, readPart, hserver, hdatabase, hcatalog, hcors, hproxy,
    Option.bind_eq_bind, Option.bind_some, Option.bind_eq_some_iff, Option.some.injEq,
    hserver', hdatabase', hcatalog', hcors', hproxy', Setting.forall_iff, Setting.Holds]
  constructor
  · rintro ⟨_, ⟨hhost, hport⟩, _, hpath, _, hpageSize, _, horigins, _, ⟨htimeout, hagent, hreferer⟩, rfl⟩
    exact ⟨hhost, hport, hpath, hpageSize, horigins, htimeout, hagent, hreferer⟩
  · rintro ⟨hhost, hport, hpath, hpageSize, horigins, htimeout, hagent, hreferer⟩
    exact ⟨_, ⟨hhost, hport⟩, _, hpath, _, hpageSize, _, horigins, _, ⟨htimeout, hagent, hreferer⟩, rfl⟩

/-- A tree in which every setting is there spells no settings exactly if one of its values is
not of the type that its setting takes. -/
theorem ofTree?_eq_none
    (hvalue : ∀ setting : Setting,
      Tree.inSection? fields setting.sectionName setting.name = some (value setting)) :
    ofTree? (.table fields) = none ↔ ∃ setting : Setting, ¬setting.HasType (value setting) := by
  have hsome := @ofTree?_eq_some fields value hvalue
  constructor
  · intro hnone
    by_contra hall
    rw [not_exists_not] at hall
    obtain ⟨settings, hsettings⟩ := Setting.exists_holds hall
    rw [hsome.mpr hsettings] at hnone
    cases hnone
  · rintro ⟨setting, htype⟩
    rw [Option.eq_none_iff_forall_ne_some]
    intro settings hsettings
    exact htype (hsome.mp hsettings setting).hasType

end Settings

end ComicCatalog
