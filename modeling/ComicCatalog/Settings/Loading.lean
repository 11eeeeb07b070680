import ComicCatalog.Settings.Reading
import ComicCatalog.Settings.Variables
import ComicCatalog.Toml.Document

/-! # Loading settings

Settings come from a text alone, or in three layers: the defaults, a file, and
the environment. A later layer wins setting by setting.
-/

namespace ComicCatalog

/-- What a path leads to. -/
inductive FileState
  | missing
  /-- Something that is not a file with text. -/
  | other
  | text (content : String)
  deriving DecidableEq, Repr, Inhabited

namespace Settings

/-- The settings of a text. -/
def ofText (s : String) : Except SettingsError Settings :=
  match (Toml.read? s).bind ofTree? with
  | some settings => .ok settings
  | none => .error .unreadable

/-- The layer of a file. What is there but is no file adds nothing. -/
def fileLayer? : FileState → Option Tree
  | .text content => Toml.read? content
  | _ => some (.table [])

/-- The settings of a file that must be there, over the defaults and under the
environment. -/
def load (path : String) (file : FileState) (environment : List (String × String)) :
    Except SettingsError Settings :=
  if file = .missing then .error (.fileNotFound path)
  else
    let tree := (fileLayer? file).map fun layer =>
      ((toTree {}).merge layer).merge (Variables.layer environment)
    match tree.bind ofTree? with
    | some settings => .ok settings
    | none => .error .unreadable

end Settings

end ComicCatalog
