import ComicCatalog.Json.Value
import ComicCatalog.Settings.Reading

/-! # Settings as JSON

Settings can be given and shown as one JSON object. A list in place of a section
may not be longer than the section has settings.
-/

namespace ComicCatalog

namespace Tree

mutual

/-- The tree of a JSON value. -/
def ofJson : Json → Tree
  | .null => .nothing
  | .bool b => .bool b
  | .number (.whole n) => .integer n
  | .number (.real x) => .real x
  | .text s => .text s
  | .array items => .list (ofJsonItems items)
  | .object fields => .table (ofJsonFields fields)

def ofJsonItems : List Json → List Tree
  | [] => []
  | item :: rest => ofJson item :: ofJsonItems rest

def ofJsonFields : List (String × Json) → List (String × Tree)
  | [] => []
  | (name, value) :: rest => (name, ofJson value) :: ofJsonFields rest

end

/-- Whether a tree is not a list of more than `count` items. -/
def hasAtMost (count : Nat) : Tree → Bool
  | .list items => items.length ≤ count
  | _ => true

end Tree

namespace Settings

/-- The sections with the number of their settings. -/
def sectionSizes : List (String × Nat) :=
  [("server", 2), ("database", 1), ("catalog", 1), ("cors", 1), ("proxy", 3)]

/-- The settings of a JSON value. -/
def ofJson? (json : Json) : Option Settings := do
  let tree := Tree.ofJson json
  let part ← tree.parts? (sectionSizes.map Prod.fst)
  let fits := sectionSizes.all fun (name, count) => (part name).all (Tree.hasAtMost count)
  if tree.hasAtMost sectionSizes.length && fits then ofTree? tree else none

/-- Settings as one JSON object. -/
def toJson (settings : Settings) : Json :=
  .object [
    ("server", .object [
      ("host", .text settings.server.host.text),
      ("port", Json.ofNat settings.server.port.toNat)]),
    ("database", .object [("path", .text settings.database.path)]),
    ("catalog", .object [("page_size", Json.ofNat settings.catalog.pageSize.toNat)]),
    ("cors", .object [("allowed_origins", Json.ofTexts settings.cors.allowedOrigins)]),
    ("proxy", .object [
      ("timeout_secs", Json.ofNat settings.proxy.timeoutSecs.toNat),
      ("user_agent", .text settings.proxy.userAgent),
      ("referer", settings.proxy.referer.elim .null .text)])]

end Settings

end ComicCatalog
