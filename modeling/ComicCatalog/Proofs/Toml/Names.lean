import ComicCatalog.Proofs.Named
import ComicCatalog.Toml.Document

/-! # Names in documents

Whatever a document writes, no table that it spells has a name twice: a name is given a value
once, and a table that is named again is entered, not made anew.
-/

namespace ComicCatalog

/-- No name comes twice, if the tree is a table. -/
def Tree.HasDistinctNames : Tree → Prop
  | .table fields => (fields.map Prod.fst).Nodup
  | _ => True

namespace Toml

/-- No name comes twice in a table, nor in the tables inside it that may still be entered. -/
inductive Node.Distinct : Node → Prop
  | leaf {value : Tree} (hvalue : value.HasDistinctNames) : Distinct (.leaf value)
  | table (origin : Origin) {fields : Fields} (hnames : (fields.map Prod.fst).Nodup)
      (hnodes : ∀ field ∈ fields, Distinct field.2) : Distinct (.table origin fields)
  | series (closed : List Fields) {last : Fields} (hnames : (last.map Prod.fst).Nodup)
      (hnodes : ∀ field ∈ last, Distinct field.2) : Distinct (.series closed last)

namespace Fields

/-- No name comes twice, here and inside. -/
structure Distinct (fields : Fields) : Prop where
  names : (fields.map Prod.fst).Nodup
  nodes : ∀ field ∈ fields, field.2.Distinct

theorem Distinct.nil : Distinct [] :=
  ⟨List.nodup_nil, fun _ hfield => absurd hfield List.not_mem_nil⟩

variable {fields : Fields}

theorem Distinct.of_lookup (hfields : fields.Distinct) {name : String} {node : Node}
    (hnode : fields.lookup name = some node) : node.Distinct :=
  hfields.nodes _ ((lookup_eq_some_iff_mem hfields.names).mp hnode)

theorem Distinct.table (hfields : fields.Distinct) (origin : Origin) :
    (Node.table origin fields).Distinct :=
  .table origin hfields.names hfields.nodes

theorem Distinct.series (hfields : fields.Distinct) (closed : List Fields) :
    (Node.series closed fields).Distinct :=
  .series closed hfields.names hfields.nodes

theorem set_eq_put (name : String) (node : Node) : fields.set name node = put fields name node := by
  induction fields with
  | nil => rfl
  | cons first rest ih => rw [Fields.set, put, ih]

theorem Distinct.set (hfields : fields.Distinct) (name : String) {node : Node}
    (hnode : node.Distinct) : (fields.set name node).Distinct := by
  rw [set_eq_put]
  refine ⟨nodup_put hfields.names name node, fun field hfield => ?_⟩
  rcases mem_put hfield with hfield | rfl
  · exact hfields.nodes field hfield
  · exact hnode

/-- A change inside leaves no name twice, if it leaves none twice where it is made. -/
theorem Distinct.alter? {dotted : Bool} {change : Origin → Fields → Option Fields}
    (hchange : ∀ origin {inner changed : Fields}, inner.Distinct →
      change origin inner = some changed → changed.Distinct)
    {origin : Origin} {path : List String} (hfields : fields.Distinct) {altered : Fields}
    (halter : fields.alter? dotted change origin path = some altered) : altered.Distinct := by
  -- Along the path only the table behind each name changes, and that one by induction.
  induction path generalizing origin fields altered with
  | nil => exact hchange origin hfields halter
  | cons name path ih =>
      unfold Fields.alter? at halter
      split at halter
      next =>
        obtain ⟨inner, hinner, rfl⟩ := Option.map_eq_some_iff.mp halter
        exact hfields.set name ((ih .nil hinner).table _)
      next => cases halter
      next closed last hlast =>
        obtain ⟨inner, hinner, rfl⟩ := Option.map_eq_some_iff.mp halter
        cases hfields.of_lookup hlast with
        | series _ hnames hnodes =>
            exact hfields.set name ((ih ⟨hnames, hnodes⟩ hinner).series closed)
      next origin' inner' hinner' =>
        split at halter
        · cases halter
        · obtain ⟨inner, hinner, rfl⟩ := Option.map_eq_some_iff.mp halter
          cases hfields.of_lookup hinner' with
          | table _ hnames hnodes =>
              exact hfields.set name ((ih ⟨hnames, hnodes⟩ hinner).table _)

theorem Distinct.addValue? (hfields : fields.Distinct) {path : List String} {name : String}
    {value : Tree} (hvalue : value.HasDistinctNames) {added : Fields}
    (hadd : fields.addValue? path name value = some added) : added.Distinct := by
  refine hfields.alter? ?_ hadd
  intro origin inner changed hinner hchange
  split at hchange
  · cases hchange
  · cases hchange
    exact hinner.set name (.leaf hvalue)

theorem Distinct.openTable? (hfields : fields.Distinct) {path : List String} {name : String}
    {opened : Fields} (hopen : fields.openTable? path name = some opened) : opened.Distinct := by
  refine hfields.alter? ?_ hopen
  intro origin outer changed houter hchange
  split at hchange
  next =>
    cases hchange
    exact houter.set name (Distinct.nil.table .header)
  next inner hinner =>
    cases hchange
    cases houter.of_lookup hinner with
    | table _ hnames hnodes => exact houter.set name (.table .header hnames hnodes)
  next => cases hchange

theorem Distinct.openNext? (hfields : fields.Distinct) {path : List String} {name : String}
    {opened : Fields} (hopen : fields.openNext? path name = some opened) : opened.Distinct := by
  refine hfields.alter? ?_ hopen
  intro origin outer changed houter hchange
  split at hchange
  next =>
    cases hchange
    exact houter.set name (Distinct.nil.series [])
  next closed last hlast =>
    cases hchange
    exact houter.set name (Distinct.nil.series _)
  next => cases hchange

end Fields

/-! ## Values -/

/-- No table that the reader reads has a name twice. -/
def ReadsDistinct (read : ValueReader) : Prop :=
  ∀ {cs rest : List Char} {value : Tree}, read cs = some (value, rest) → value.HasDistinctNames

theorem hasDistinctNames_word? {n : Int} {value : Tree} (hvalue : word? n = some value) :
    value.HasDistinctNames := by
  unfold word? at hvalue
  split at hvalue
  · cases hvalue
    trivial
  · cases hvalue

theorem readsDistinct_based? (base : Nat) : ReadsDistinct (based? base) := by
  intro cs rest value hread
  simp only [based?, Option.bind_eq_bind, Option.bind_eq_some_iff, Option.some.injEq] at hread
  obtain ⟨_, -, _, -, _, hword, hread⟩ := hread
  cases hread
  exact hasDistinctNames_word? hword

theorem readsDistinct_integer? : ReadsDistinct integer? := by
  intro cs rest value hread
  unfold integer? at hread
  split at hread
  · exact readsDistinct_based? 16 hread
  · exact readsDistinct_based? 8 hread
  · exact readsDistinct_based? 2 hread
  · simp only [Option.bind_eq_bind, Option.bind_eq_some_iff, Option.some.injEq] at hread
    obtain ⟨_, -, _, hword, hread⟩ := hread
    cases hread
    exact hasDistinctNames_word? hword

theorem readsDistinct_decimal? : ReadsDistinct decimal? := by
  intro cs rest value hread
  simp only [decimal?, Option.bind_eq_bind, Option.bind_eq_some_iff] at hread
  obtain ⟨_, -, _, -, _, -, hread⟩ := hread
  split at hread
  · cases hread
    trivial
  · cases hread

theorem readsDistinct_special? : ReadsDistinct special? := by
  intro cs rest value hread
  unfold special? at hread
  split at hread
  · cases hread
    trivial
  · cases hread
    trivial
  · cases hread

theorem readsDistinct_moment? : ReadsDistinct moment? := by
  intro cs rest value hread
  unfold moment? at hread
  split at hread
  · cases hread
    trivial
  · obtain ⟨_, -, hread⟩ := Option.map_eq_some_iff.mp hread
    cases hread
    trivial

theorem readsDistinct_numeric? : ReadsDistinct numeric? := by
  intro cs rest value hread
  simp only [numeric?, HOrElse.hOrElse, OrElse.orElse, Option.orElse_eq_or,
    Option.or_eq_some_iff] at hread
  rcases hread with hread | ⟨-, hread | ⟨-, hread | ⟨-, hread⟩⟩⟩
  · exact readsDistinct_moment? hread
  · exact readsDistinct_decimal? hread
  · exact readsDistinct_special? hread
  · exact readsDistinct_integer? hread

theorem hasDistinctNames_of_pair? {read : ValueReader} (hread : ReadsDistinct read)
    {cs rest : List Char} {key : Key} {value : Tree}
    (hpair : pair? read cs = some ((key, value), rest)) : value.HasDistinctNames := by
  simp only [pair?, Option.bind_eq_bind, Option.bind_eq_some_iff, Option.some.injEq] at hpair
  obtain ⟨_, -, _, -, ⟨_, _⟩, hvalue, hpair⟩ := hpair
  cases hpair
  exact hread hvalue

theorem distinct_pairs? {read : ValueReader} (hread : ReadsDistinct read) {fuel : Nat}
    {fields : Fields} (hfields : fields.Distinct) {cs rest : List Char} {read' : Fields}
    (hpairs : pairs? read fuel fields cs = some (read', rest)) : read'.Distinct := by
  induction fuel generalizing fields cs with
  | zero => cases hpairs
  | succ fuel ih =>
      simp only [pairs?, Option.bind_eq_bind, Option.bind_eq_some_iff] at hpairs
      obtain ⟨⟨⟨key, value⟩, after⟩, hpair, added, hadd, hpairs⟩ := hpairs
      have hadded : added.Distinct := hfields.addValue? (hasDistinctNames_of_pair? hread hpair) hadd
      split at hpairs
      · exact ih hadded hpairs
      · cases hpairs
        exact hadded
      · cases hpairs

theorem names_trees (fields : Fields) :
    (Fields.trees fields).map Prod.fst = fields.map Prod.fst := by
  induction fields with
  | nil => rw [Fields.trees, List.map_nil, List.map_nil]
  | cons field rest ih => rw [Fields.trees, List.map_cons, List.map_cons, ih]

theorem hasDistinctNames_trees {fields : Fields} (hnames : (fields.map Prod.fst).Nodup) :
    (Tree.table (Fields.trees fields)).HasDistinctNames := by
  show ((Fields.trees fields).map Prod.fst).Nodup
  rwa [names_trees]

theorem readsDistinct_value? (levels : Nat) : ReadsDistinct (value? levels) := by
  intro cs rest value hread
  -- The tables inside a table are read with one level less.
  induction levels using Nat.strongRecOn generalizing cs rest value with
  | ind levels ih =>
      unfold value? at hread
      split at hread
      next =>
        obtain ⟨_, -, hread⟩ := Option.map_eq_some_iff.mp hread
        cases hread
        trivial
      next =>
        obtain ⟨_, -, hread⟩ := Option.map_eq_some_iff.mp hread
        cases hread
        trivial
      next =>
        split at hread
        · cases hread
        · obtain ⟨_, -, hread⟩ := Option.map_eq_some_iff.mp hread
          cases hread
          trivial
      next =>
        split at hread
        · cases hread
        next levels =>
          split at hread
          · cases hread
            exact List.nodup_nil
          · obtain ⟨⟨fields, after⟩, hpairs, hread⟩ := Option.map_eq_some_iff.mp hread
            cases hread
            exact hasDistinctNames_trees
              (distinct_pairs? (ih levels (Nat.lt_succ_self levels)) .nil hpairs).names
      next =>
        cases hread
        trivial
      next =>
        cases hread
        trivial
      next => exact readsDistinct_numeric? hread

/-! ## Documents -/

namespace Draft

theorem distinct_header? {draft opened : Draft} (hdraft : draft.fields.Distinct)
    {cs rest : List Char} (hopened : draft.header? cs = some (opened, rest)) :
    opened.fields.Distinct := by
  unfold header? at hopened
  split at hopened
  · simp only [Option.bind_eq_bind, Option.bind_eq_some_iff, Option.some.injEq] at hopened
    obtain ⟨_, -, fields, hfields, _, -, _, -, hopened⟩ := hopened
    cases hopened
    exact hdraft.openNext? hfields
  · simp only [Option.bind_eq_bind, Option.bind_eq_some_iff, Option.some.injEq] at hopened
    obtain ⟨_, -, fields, hfields, _, -, hopened⟩ := hopened
    cases hopened
    exact hdraft.openTable? hfields

theorem distinct_pair? {draft added : Draft} (hdraft : draft.fields.Distinct)
    {cs rest : List Char} (hadded : draft.pair? cs = some (added, rest)) :
    added.fields.Distinct := by
  simp only [pair?, Option.bind_eq_bind, Option.bind_eq_some_iff, Option.some.injEq] at hadded
  obtain ⟨⟨⟨key, value⟩, _⟩, hpair, fields, hfields, hadded⟩ := hadded
  cases hadded
  have hvalue := hasDistinctNames_of_pair? (readsDistinct_value? _) hpair
  exact hdraft.alter? (fun _ _ _ hinner hchange => hinner.addValue? hvalue hchange) hfields

theorem distinct_lines? {fuel : Nat} {draft done : Draft} (hdraft : draft.fields.Distinct)
    {cs : List Char} (hdone : draft.lines? fuel cs = some done) : done.fields.Distinct := by
  induction fuel generalizing draft cs with
  | zero => cases hdone
  | succ fuel ih =>
      unfold lines? at hdone
      split at hdone
      next =>
        cases hdone
        exact hdraft
      next =>
        split at hdone
        · cases hdone
          exact hdraft
        · cases hdone
      next =>
        simp only [Option.bind_eq_bind, Option.bind_eq_some_iff] at hdone
        obtain ⟨_, hopened, _, -, hdone⟩ := hdone
        exact ih (distinct_header? hdraft hopened) hdone
      next =>
        simp only [Option.bind_eq_bind, Option.bind_eq_some_iff] at hdone
        obtain ⟨_, hadded, _, -, hdone⟩ := hdone
        exact ih (distinct_pair? hdraft hadded) hdone

end Draft

theorem Node.Distinct.hasDistinctNames_tree {node : Node} (hnode : node.Distinct) :
    node.tree.HasDistinctNames := by
  cases hnode with
  | leaf hvalue => exact hvalue
  | table _ hnames => exact hasDistinctNames_trees hnames
  | series => trivial

theorem Fields.Distinct.trees {fields : Fields} (hfields : fields.Distinct) :
    ∀ field ∈ Fields.trees fields, field.2.HasDistinctNames := by
  have hnodes := hfields.nodes
  clear hfields
  induction fields with
  | nil => exact fun field hfield => absurd hfield List.not_mem_nil
  | cons first rest ih =>
      obtain ⟨hfirst, hrest⟩ := List.forall_mem_cons.mp hnodes
      rw [Fields.trees]
      exact List.forall_mem_cons.mpr ⟨hfirst.hasDistinctNames_tree, ih hrest⟩

/-- A document spells a table without repeated names, of tables without repeated names. -/
theorem read?_distinct {s : String} {tree : Tree} (hread : read? s = some tree) :
    ∃ fields, tree = .table fields ∧ (fields.map Prod.fst).Nodup ∧
      ∀ field ∈ fields, field.2.HasDistinctNames := by
  obtain ⟨draft, hdraft, rfl⟩ := Option.map_eq_some_iff.mp hread
  have hfields : draft.fields.Distinct := Draft.distinct_lines? .nil hdraft
  exact ⟨_, rfl, hasDistinctNames_trees hfields.names, hfields.trees⟩

end Toml

end ComicCatalog
