import ComicCatalog.Lookup.Source
import ComicCatalog.Settings.Loading
import ComicCatalog.Store.File
import ComicCatalog.Url.Names
import ComicCatalog.Web.Service

/-! # Starting the service

The service starts with its settings loaded and checked, its database opened and
its relay set up, in this order. Settings files are optional; anything else that
goes wrong ends the start.
-/

namespace ComicCatalog

/-- Why the service does not start. -/
inductive StartupError
  | settings (error : SettingsError)
  | store (error : StoreError)
  | relay (fault : RelayFault)
  deriving DecidableEq, Repr

def StartupError.message : StartupError → String
  | .settings error => error.message
  | .store error => error.message
  | .relay fault => fault.message

/-- A service that is ready to answer requests. -/
structure Startup where
  settings : Settings
  service : Service
  database : Database

namespace Startup

/-- The settings to start with, which must be sane. Without a settings file they
are the defaults. -/
def settingsFor (path : String) (file : FileState) (environment : List (String × String)) :
    Except StartupError Settings :=
  let loaded : Except SettingsError Settings :=
    match Settings.load path file environment with
    | .error (.fileNotFound _) => .ok {}
    | loaded => loaded
  match loaded with
  | .error error => .error (.settings error)
  | .ok settings =>
      match settings.check with
      | .ok () => .ok settings
      | .error fault => .error (.settings (.invalid fault))

/-- Start the service on a database file with the given content. -/
def prepare [DatabaseFiles] (settings : Settings) (content : Bytes) : Except StartupError Startup :=
  match Database.ofFile settings.database.path content with
  | .error error => .error (.store error)
  | .ok database =>
      match RelayClient.ofSettings settings.proxy with
      | .error fault => .error (.relay fault)
      | .ok relay =>
          .ok {
            settings
            service :=
              { allowedOrigins := settings.cors.allowedOrigins
                pageSize := settings.catalog.pageSize.toNat
                relay }
            database }

/-- The state of a service that has not answered any request. -/
def state (startup : Startup) (peer : Peer) : ServiceState Source :=
  ⟨.database startup.database, peer, [], 0⟩

end Startup

end ComicCatalog
