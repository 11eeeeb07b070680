import ComicCatalog.Net.Address
import ComicCatalog.Number.Binary64

/-! # Settings trees

Settings arrive from files and variables as trees of values whose kinds are not
yet checked. Layers of settings are merged tree by tree: tables are merged name
by name, and anything else is replaced by the later layer.
-/

namespace ComicCatalog

/-- A value in a settings source. A date or time has no setting that takes it,
so only its presence is kept. -/
inductive Tree
  | nothing
  | bool (b : Bool)
  | integer (n : Int)
  | real (x : Binary64)
  | text (s : String)
  | moment
  | list (items : List Tree)
  | table (fields : List (String × Tree))
  deriving Inhabited

namespace Tree

/-- Give a name a value, in its place if the name is there already. -/
def setField : List (String × Tree) → String → Tree → List (String × Tree)
  | [], name, value => [(name, value)]
  | (other, old) :: rest, name, value =>
      if other = name then (name, value) :: rest else (other, old) :: setField rest name value

theorem lookup_setField (fields : List (String × Tree)) (name other : String) (value : Tree) :
    (setField fields name value).lookup other =
      if other = name then some value else fields.lookup other := by
  induction fields with
  | nil =>
      by_cases h : other = name
      · simp [setField, h]
      · have h' : (other == name) = false := by simp [h]
        simp [setField, h, List.lookup_cons, h']
  | cons field rest ih =>
      obtain ⟨first, old⟩ := field
      by_cases hf : first = name
      · subst hf
        by_cases h : other = first
        · simp [setField, h]
        · have h' : (other == first) = false := by simp [h]
          simp [setField, h, List.lookup_cons, h']
      · simp only [setField, hf, if_false, List.lookup_cons]
        by_cases h : other = name
        · subst h
          have h' : (other == first) = false := by simp [Ne.symm hf]
          simp [h', ih]
        · simp [ih, h]

mutual

/-- A tree under a later layer. -/
def merge (base : Tree) : Tree → Tree
  | .table later =>
      match base with
      | .table fields => .table (mergeFields fields later)
      | _ => .table later
  | .nothing => .nothing
  | .bool b => .bool b
  | .integer n => .integer n
  | .real x => .real x
  | .text s => .text s
  | .moment => .moment
  | .list items => .list items

/-- The fields of a table under the fields of a later layer. -/
def mergeFields (base : List (String × Tree)) : List (String × Tree) → List (String × Tree)
  | [] => base
  | (name, value) :: rest =>
      mergeFields
        (setField base name
          (match base.lookup name with
          | some old => merge old value
          | none => value)) rest

end

/-- The tree with a value at the end of a path of names. -/
def atPath (value : Tree) : List String → Tree
  | [] => value
  | name :: rest => .table [(name, atPath value rest)]

end Tree

end ComicCatalog
