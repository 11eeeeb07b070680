import ComicCatalog.Store.Database

/-! # Sample catalog

Five works with names of every facet, small enough to be read at a glance.

| id | title              | language | pages | tags             | artist |
|----|--------------------|----------|-------|------------------|--------|
| 1  | Cat Dog Adventures | en       | 20    | dog, cat, comedy | hyji   |
| 2  | Dog Days           | jp       | 35    | dog              | aoi    |
| 3  | The Cat Returns    | en       | 12    | cat              | zed    |
| 4  | Cat And Dog        | EN       | 14    | cat, dog         | hyji   |
| 5  | Lonely Robot       | fr       | 18    | robot            |        |

The character `neko` is in 1 and 3, the group `circle-k` made 1 and 2, and the one
parody is 5.
-/

namespace ComicCatalog.Database

/-- A row of the works table. -/
def sampleWork (id : Int) (title language : String) (pages favorites : Int)
    (cover : Option String) : Row :=
  ⟨id, [.ofText title, .ofText language, .integer pages, .integer favorites, .null,
    (cover.map Cell.ofText).getD .null]⟩

/-- Rows of a names table, numbered from one. -/
def sampleNames (names : List String) : List Row :=
  names.zipIdx.map fun (name, index) => ⟨index + 1, [.ofText name]⟩

/-- Rows of a links table, numbered from one. -/
def sampleLinks (links : List (Int × Int)) : List Row :=
  links.zipIdx.map fun (link, index) => ⟨index + 1, [.integer link.1, .integer link.2]⟩

/-- The sample catalog. -/
def sample : Database where
  contents := [
    (.works, [
      sampleWork 1 "Cat Dog Adventures" "en" 20 120 (some "https://img.example.org/1.jpg"),
      sampleWork 2 "Dog Days" "jp" 35 80 (some "https://img.example.org/2.jpg"),
      sampleWork 3 "The Cat Returns" "en" 12 45 (some "https://img.example.org/3.jpg"),
      sampleWork 4 "Cat And Dog" "EN" 14 300 (some "https://img.example.org/4.jpg"),
      sampleWork 5 "Lonely Robot" "fr" 18 5 none]),
    (.names .tag, sampleNames ["dog", "cat", "robot", "comedy"]),
    (.names .artist, sampleNames ["hyji", "aoi", "zed"]),
    (.names .character, sampleNames ["neko"]),
    (.names .group, sampleNames ["circle-k"]),
    (.names .parody, sampleNames ["original"]),
    (.links .tag, sampleLinks [(1, 1), (1, 2), (2, 1), (3, 2), (4, 2), (4, 1), (5, 3), (1, 4)]),
    (.links .artist, sampleLinks [(1, 1), (2, 2), (3, 3), (4, 1)]),
    (.links .character, sampleLinks [(1, 1), (3, 1)]),
    (.links .group, sampleLinks [(1, 1), (2, 1)]),
    (.links .parody, sampleLinks [(5, 1)])]
  enforcesLinks := true

end ComicCatalog.Database
