import ComicCatalog.Work.Ident
import ComicCatalog.Text.Fold

/-! # Catalog entries

A work as the catalog shows it: its stored columns, the names of its tags and
the names of its artists. Entries can be ordered by their first artist.
-/

namespace ComicCatalog

/-- The direction of an ordering. -/
inductive Direction
  | ascending
  | descending
  deriving DecidableEq, Repr, Inhabited

namespace Direction

/-- The direction an `order` parameter asks for. Only `desc`, in any case and
trimmed, is descending. -/
def ofParam : Option String → Direction
  | some value =>
      if Text.asciiFold (Text.trim value) = "desc" then .descending else .ascending
  | none => .ascending

/-- The direction's keyword in a select statement. -/
def keyword : Direction → String
  | .ascending => "ASC"
  | .descending => "DESC"

/-- An order read in the given direction. -/
def apply : Direction → Ordering → Ordering
  | .ascending, order => order
  | .descending, order => order.swap

end Direction

/-- A work with the names attached to it. -/
structure Entry where
  fields : Record
  tags : List String
  artists : List String
  deriving Inhabited

namespace Entry

/-- Attach names to a stored row. They take the place of stored columns of the
same names. -/
def ofRecord (record : Record) (tags artists : List String) : Entry :=
  ⟨(record.erase "tags").erase "artist", tags, artists⟩

/-- The identifier of the work, if its row has one. -/
def id? (entry : Entry) : Option Ident :=
  Ident.inColumn? entry.fields "id"

def firstArtist? (entry : Entry) : Option String :=
  entry.artists.head?

/-- The entry as one JSON object. -/
def toJson (entry : Entry) : Json :=
  .object (entry.fields ++ [("tags", Json.ofTexts entry.tags), ("artist", Json.ofTexts entry.artists)])

/-- Names are ordered by their lowercase forms, and equal ones by themselves. -/
def compareNames (a b : String) : Ordering :=
  (compare (Text.fold a) (Text.fold b)).then (compare a b)

/-- Entries are ordered by first artist in the given direction; entries without
an artist come last in both. -/
def compareArtists (direction : Direction) (a b : Entry) : Ordering :=
  match a.firstArtist?, b.firstArtist? with
  | some x, some y => direction.apply (compareNames x y)
  | some _, none => .lt
  | none, some _ => .gt
  | none, none => .eq

/-- Order entries by first artist, keeping the order of equal ones. -/
def sortByArtist (direction : Direction) (entries : List Entry) : List Entry :=
  entries.mergeSort fun a b => (compareArtists direction a b).isLE

end Entry

end ComicCatalog
