import ComicCatalog.Text.Fold

/-! # Query fields

A query speaks about seven fields of a work. Five of them are facets: names
kept in a table of their own and linked to works many-to-many. The other two are
the title and the identifier of the work itself.
-/

namespace ComicCatalog

/-- A kind of name linked to works. -/
inductive Facet
  | tag
  | character
  | artist
  | group
  | parody
  deriving DecidableEq, Repr, Inhabited

namespace Facet

/-- Every facet, in the order in which facets are looked up and reported. -/
def all : List Facet :=
  [.tag, .character, .artist, .group, .parody]

theorem mem_all (facet : Facet) : facet ∈ all := by
  cases facet <;> decide

/-- The name of the facet in queries and in counters. -/
def key : Facet → String
  | .tag => "tag"
  | .character => "character"
  | .artist => "artist"
  | .group => "mgroup"
  | .parody => "parody"

/-- The table that holds the names. -/
def namesTable : Facet → String
  | .tag => "tags"
  | .character => "characters"
  | .artist => "artists"
  | .group => "groups"
  | .parody => "parodies"

/-- The table that links works to names. -/
def linksTable : Facet → String
  | .tag => "manga_tags"
  | .character => "manga_characters"
  | .artist => "manga_artists"
  | .group => "manga_groups"
  | .parody => "manga_parodies"

/-- The column of the links table that points at the name. -/
def linkColumn : Facet → String
  | .tag => "tag_id"
  | .character => "character_id"
  | .artist => "artist_id"
  | .group => "group_id"
  | .parody => "parody_id"

end Facet

/-- A field that a query term may be scoped to. -/
inductive Field
  | facet (kind : Facet)
  | title
  | id
  deriving DecidableEq, Repr, Inhabited

namespace Field

/-- Every field, in the order in which fields are looked up and reported. -/
def all : List Field :=
  Facet.all.map .facet ++ [.title, .id]

theorem mem_all (field : Field) : field ∈ all := by
  cases field with
  | facet kind => exact List.mem_append_left _ (List.mem_map_of_mem (Facet.mem_all kind))
  | title => decide
  | id => decide

/-- The name of the field in queries. -/
def key : Field → String
  | .facet kind => kind.key
  | .title => "title"
  | .id => "id"

/-- The field a term's key names; ASCII case does not matter. -/
def named? (name : String) : Option Field :=
  all.find? fun field => field.key == Text.asciiFold name

/-- The facet behind a field, if it has one. -/
def facet? : Field → Option Facet
  | .facet kind => some kind
  | .title => none
  | .id => none

end Field

end ComicCatalog
