import ComicCatalog.Toml.Value

/-! # TOML documents

A document is a sequence of lines: headers, pairs, and lines that hold nothing
but a comment. Pairs belong to the table of the last header before them.
-/

namespace ComicCatalog.Toml

/-- A document read so far: its things, and the path of the open table. -/
structure Draft where
  fields : Fields
  table : List String

/-- A header line, after its first bracket. -/
def Draft.header? (draft : Draft) : List Char → Option (Draft × List Char)
  | '[' :: rest => do
      let (key, rest) ← key? rest
      let fields ← draft.fields.openNext? key.path key.name
      some (⟨fields, key.path ++ [key.name]⟩, ← after? ']' (← after? ']' rest))
  | cs => do
      let (key, rest) ← key? cs
      let fields ← draft.fields.openTable? key.path key.name
      some (⟨fields, key.path ++ [key.name]⟩, ← after? ']' rest)

/-- A pair, in the open table. -/
def Draft.pair? (draft : Draft) (cs : List Char) : Option (Draft × List Char) := do
  let ((key, value), rest) ← Toml.pair? (value? (depthLimit - 1)) cs
  let fields ← draft.fields.alter? false
    (fun _ inner => inner.addValue? key.path key.name value) .header draft.table
  some (⟨fields, draft.table⟩, rest)

/-- The lines of a document. -/
def Draft.lines? (fuel : Nat) (draft : Draft) (cs : List Char) : Option Draft :=
  match fuel with
  | 0 => none
  | fuel + 1 =>
      match skipGap cs with
      | [] => some draft
      | '#' :: rest => if (rest.dropWhile isPlain).isEmpty then some draft else none
      | '[' :: rest => do
          let (draft, rest) ← draft.header? rest
          draft.lines? fuel (← afterLine? rest)
      | cs => do
          let (draft, rest) ← draft.pair? cs
          draft.lines? fuel (← afterLine? rest)

/-- The table that a whole document spells. A byte order mark may come first. -/
def read? (s : String) : Option Tree :=
  let cs :=
    match s.toList with
    | '\uFEFF' :: rest => rest
    | cs => cs
  (Draft.lines? (cs.length + 1) ⟨[], []⟩ cs).map fun draft => .table (Fields.trees draft.fields)

end ComicCatalog.Toml
