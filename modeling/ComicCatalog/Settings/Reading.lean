import ComicCatalog.Settings.Basic

/-! # Settings from trees

Names that are not settings are passed over, and what is missing has its
default. A section may also be a list, which gives its settings by position. A
value of the wrong kind makes the whole tree unreadable.
-/

namespace ComicCatalog

namespace Tree

/-- The named parts of a section. A date or time in place of a section names
nothing. -/
def parts? (names : List String) : Tree → Option (String → Option Tree)
  | .table fields => some fun name => fields.lookup name
  | .list items => some fun name => (names.zip items).lookup name
  | .moment => some fun _ => none
  | _ => none

/-- A whole number below a bound. -/
def natBelow? (bound : Nat) : Tree → Option Nat
  | .integer n => if 0 ≤ n ∧ n < bound then some n.toNat else none
  | _ => none

def text? : Tree → Option String
  | .text s => some s
  | _ => none

def address? (tree : Tree) : Option Address :=
  tree.text?.bind Address.ofText?

def texts? : Tree → Option (List String)
  | .list items => items.mapM text?
  | _ => none

/-- A text, or nothing on purpose. -/
def optionalText? : Tree → Option (Option String)
  | .nothing => some none
  | tree => tree.text?.map some

end Tree

/-- A part read by its reader; a missing part has its default. -/
def readPart {α : Type} (read : Tree → Option α) (default : α) : Option Tree → Option α
  | some tree => read tree
  | none => some default

def ServerSettings.ofTree? (tree : Tree) : Option ServerSettings := do
  let part ← tree.parts? ["host", "port"]
  let host ← readPart Tree.address? ({} : ServerSettings).host (part "host")
  let port ← readPart (fun t => (t.natBelow? UInt16.size).map UInt16.ofNat) ({} : ServerSettings).port
    (part "port")
  some { host, port }

def DatabaseSettings.ofTree? (tree : Tree) : Option DatabaseSettings := do
  let part ← tree.parts? ["path"]
  let path ← readPart Tree.text? ({} : DatabaseSettings).path (part "path")
  some { path }

def CatalogSettings.ofTree? (tree : Tree) : Option CatalogSettings := do
  let part ← tree.parts? ["page_size"]
  let pageSize ← readPart (fun t => (t.natBelow? UInt32.size).map UInt32.ofNat)
    ({} : CatalogSettings).pageSize (part "page_size")
  some { pageSize }

def CorsSettings.ofTree? (tree : Tree) : Option CorsSettings := do
  let part ← tree.parts? ["allowed_origins"]
  let allowedOrigins ← readPart Tree.texts? ({} : CorsSettings).allowedOrigins
    (part "allowed_origins")
  some { allowedOrigins }

def ProxySettings.ofTree? (tree : Tree) : Option ProxySettings := do
  let part ← tree.parts? ["timeout_secs", "user_agent", "referer"]
  let timeoutSecs ← readPart (fun t => (t.natBelow? UInt64.size).map UInt64.ofNat)
    ({} : ProxySettings).timeoutSecs (part "timeout_secs")
  let userAgent ← readPart Tree.text? ({} : ProxySettings).userAgent (part "user_agent")
  let referer ← readPart Tree.optionalText? ({} : ProxySettings).referer (part "referer")
  some { timeoutSecs, userAgent, referer }

/-- The settings that a tree spells. -/
def Settings.ofTree? (tree : Tree) : Option Settings := do
  let part ← tree.parts? ["server", "database", "catalog", "cors", "proxy"]
  let server ← readPart ServerSettings.ofTree? {} (part "server")
  let database ← readPart DatabaseSettings.ofTree? {} (part "database")
  let catalog ← readPart CatalogSettings.ofTree? {} (part "catalog")
  let cors ← readPart CorsSettings.ofTree? {} (part "cors")
  let proxy ← readPart ProxySettings.ofTree? {} (part "proxy")
  some { server, database, catalog, cors, proxy }

end ComicCatalog
