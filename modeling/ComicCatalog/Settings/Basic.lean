import ComicCatalog.Settings.Tree
import ComicCatalog.Text.Quoted

/-! # Settings

The settings of the catalog service, their defaults, and the check that they are
sane. The check reports the first fault in the order of the sections.
-/

namespace ComicCatalog

/-- Where the service listens. -/
structure ServerSettings where
  host : Address := .v4 0
  port : UInt16 := 8080
  deriving DecidableEq, Repr, Inhabited

/-- Where the stored catalog is. -/
structure DatabaseSettings where
  path : String := "mangashelf.db"
  deriving DecidableEq, Repr, Inhabited

/-- How many works a listing shows at most. -/
structure CatalogSettings where
  pageSize : UInt32 := 1000
  deriving DecidableEq, Repr, Inhabited

/-- The origins that may read answers in a browser; none listed admits all. -/
structure CorsSettings where
  allowedOrigins : List String := []
  deriving DecidableEq, Repr, Inhabited

/-- How images are fetched. -/
structure ProxySettings where
  timeoutSecs : UInt64 := 30
  userAgent : String := "mangashelf/0.1.0"
  referer : Option String := none
  deriving DecidableEq, Repr, Inhabited

/-- The settings of the service. -/
structure Settings where
  server : ServerSettings := {}
  database : DatabaseSettings := {}
  catalog : CatalogSettings := {}
  cors : CorsSettings := {}
  proxy : ProxySettings := {}
  deriving DecidableEq, Repr, Inhabited

/-- Why settings are not sane. -/
inductive SettingsFault
  | zeroPort
  | zeroPageSize
  | zeroTimeout
  | referer (value : String)
  | origin (value : String)
  deriving DecidableEq, Repr

/-- Why there are no settings to work with. -/
inductive SettingsError
  | fileNotFound (path : String)
  | unreadable
  | invalid (fault : SettingsFault)
  deriving DecidableEq, Repr

def SettingsFault.message : SettingsFault → String
  | .zeroPort => "server.port cannot be 0"
  | .zeroPageSize => "catalog.page_size cannot be 0"
  | .zeroTimeout => "proxy.timeout_secs cannot be 0"
  | .referer value => "proxy.referer must be an http(s) URL, got " ++ Text.quoted value
  | .origin value =>
      "cors.allowed_origins entries must be http(s) origins, got " ++ Text.quoted value

def SettingsError.message : SettingsError → String
  | .fileNotFound path => "Configuration file not found: " ++ path
  | .unreadable => "Failed to parse configuration"
  | .invalid fault => "Configuration validation failed: " ++ fault.message

namespace Settings

/-- Whether a text starts as a web address does, in lower case. -/
def startsAsWebAddress (value : String) : Bool :=
  "http://".toList.isPrefixOf value.toList || "https://".toList.isPrefixOf value.toList

/-- The faults of settings, in the order in which they are looked for. -/
def faults (settings : Settings) : List SettingsFault :=
  (if settings.server.port = 0 then [.zeroPort] else []) ++
    (if settings.catalog.pageSize = 0 then [.zeroPageSize] else []) ++
    (if settings.proxy.timeoutSecs = 0 then [.zeroTimeout] else []) ++
    (settings.proxy.referer.toList.filter (!startsAsWebAddress ·)).map .referer ++
    (settings.cors.allowedOrigins.filter (!startsAsWebAddress ·)).map .origin

/-- Settings pass when they have no fault; otherwise the first one is reported. -/
def check (settings : Settings) : Except SettingsFault Unit :=
  match settings.faults with
  | [] => .ok ()
  | fault :: _ => .error fault

/-- Settings as the tree that spells them. -/
def toTree (settings : Settings) : Tree :=
  .table [
    ("server", .table [
      ("host", .text settings.server.host.text),
      ("port", .integer settings.server.port.toNat)]),
    ("database", .table [("path", .text settings.database.path)]),
    ("catalog", .table [("page_size", .integer settings.catalog.pageSize.toNat)]),
    ("cors", .table [("allowed_origins", .list (settings.cors.allowedOrigins.map .text))]),
    ("proxy", .table [
      ("timeout_secs", .integer settings.proxy.timeoutSecs.toNat),
      ("user_agent", .text settings.proxy.userAgent),
      ("referer", settings.proxy.referer.elim .nothing .text)])]

end Settings

end ComicCatalog
