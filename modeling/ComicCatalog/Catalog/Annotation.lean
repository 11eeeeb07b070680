import ComicCatalog.Catalog.Matching

/-! # Annotation

Stored rows become catalog entries by attaching the names of their tags and
artists. The names of all rows are looked up together: links first, then the
names they point at.
-/

namespace ComicCatalog

open Lookup

/-- Names of one facet, each with the work it is linked to, in link order. -/
structure NameIndex where
  links : List (Ident × String)
  deriving Repr, Inhabited

namespace NameIndex

/-- The names linked to a work. -/
def namesOf (index : NameIndex) (work : Ident) : List String :=
  (index.links.filter fun link => link.1 == work).map Prod.snd

/-- The names linked to the work a row is about. -/
def namesOfRow (index : NameIndex) (row : Record) : List String :=
  match Ident.inColumn? row "id" with
  | some work => index.namesOf work
  | none => []

end NameIndex

namespace Facet

/-- The identifier and the name in a row of a names table, if it has both. -/
def nameOfRow? (row : Record) : Option (Ident × String) := do
  let ident ← Ident.inColumn? row "id"
  let name ← (row.get? "name").bind Json.text?
  some (ident, name)

/-- Attach names to links. Links to a missing name, and links without both ends,
are left out; of two names with one identifier the later counts. -/
def indexLinks (facet : Facet) (links names : List Record) : NameIndex :=
  let named := (names.filterMap nameOfRow?).reverse
  ⟨links.filterMap fun link => do
    let work ← Ident.inColumn? link "manga_id"
    let target ← Ident.inColumn? link facet.linkColumn
    let name ← named.lookup target
    some (work, name)⟩

/-- The names of one facet for the given works. -/
def namesByWork (facet : Facet) (works : List String) : Lookup StoreError NameIndex := do
  let links ← among (Select.ofColumns facet.linksTable ["manga_id", facet.linkColumn])
    "manga_id" works
  let targets := Candidates.ofList (identsIn facet.linkColumn links)
  let names ← among (Select.ofColumns facet.namesTable ["id", "name"]) "id"
    (targets.ids.map Ident.text)
  pure (facet.indexLinks links names)

end Facet

/-- Turn rows into entries, keeping their order. Without rows nothing is looked
up. -/
def annotate (rows : List Record) : Lookup StoreError (List Entry) :=
  if rows.isEmpty then pure []
  else do
    let works := (identsIn "id" rows).map Ident.text
    let tags ← Facet.tag.namesByWork works
    let artists ← Facet.artist.namesByWork works
    pure (rows.map fun row =>
      Entry.ofRecord row (tags.namesOfRow row) (artists.namesOfRow row))

end ComicCatalog
