import ComicCatalog.Lookup.Program
import ComicCatalog.Lookup.Source
import Mathlib.Data.List.Nodup

/-! # What a lookup finds in a database

A database answers a select the same way each time, so a lookup that runs against it has
a result that does not depend on what was asked before. The result of a lookup is put
together from the results of its parts, and it is a failure only when an asked select is
refused.
-/

namespace ComicCatalog

namespace Lookup

variable {ε δ α β : Type} {db : Database}

/-- The result of a lookup whose selects a database answers. -/
def resultOn (db : Database) : Lookup ε α → Except ε α
  | .done result => .ok result
  | .count _ next => next.resultOn db
  | .ask select refuse next =>
      match db.answer select with
      | .error failure => .error (refuse failure)
      | .ok rows => (next rows).resultOn db

/-- A run against a database gives this result and leaves the database as it is. -/
theorem run_database (db : Database) (lookup : Lookup ε α) :
    (lookup.run Source.respond (.database db)).result = lookup.resultOn db ∧
      (lookup.run Source.respond (.database db)).state = .database db := by
  induction lookup with
  | done result => exact ⟨rfl, rfl⟩
  | count counter next ih => exact ih
  | ask select refuse next ih =>
      simp only [run, Source.respond, resultOn]
      cases hanswer : db.answer select with
      | error failure => exact ⟨rfl, rfl⟩
      | ok rows => exact ih rows

/-- A lookup of which no select is refused has a result. -/
theorem exists_resultOn {lookup : Lookup ε α}
    (hasked : ∀ select ∈ (lookup.run Source.respond (.database db)).asked,
      ∃ rows, db.answer select = .ok rows) : ∃ result, lookup.resultOn db = .ok result := by
  induction lookup with
  | done result => exact ⟨result, rfl⟩
  | count counter next ih => exact ih hasked
  | ask select refuse next ih =>
      simp only [run, Source.respond] at hasked
      cases hanswer : db.answer select with
      | error failure =>
          simp only [hanswer] at hasked
          obtain ⟨rows, hrows⟩ := hasked select List.mem_cons_self
          rw [hanswer] at hrows
          cases hrows
      | ok rows =>
          simp only [hanswer] at hasked
          simp only [resultOn, hanswer]
          exact ih rows fun other hother => hasked other (List.mem_cons_of_mem select hother)

/-- A lookup with a result has had every select answered. -/
theorem answered_of_resultOn {lookup : Lookup ε α} {result : α}
    (hresult : lookup.resultOn db = .ok result) :
    ∀ select ∈ (lookup.run Source.respond (.database db)).asked,
      ∃ rows, db.answer select = .ok rows := by
  induction lookup with
  | done result =>
      intro select hselect
      cases hselect
  | count counter next ih => exact ih hresult
  | ask select refuse next ih =>
      simp only [resultOn] at hresult
      cases hanswer : db.answer select with
      | error failure =>
          rw [hanswer] at hresult
          cases hresult
      | ok rows =>
          simp only [hanswer] at hresult
          simp only [run, Source.respond, hanswer]
          intro other hother
          rcases List.mem_cons.mp hother with rfl | hother
          · exact ⟨rows, hanswer⟩
          · exact ih rows hresult other hother

/-! ## The parts of a lookup -/

@[simp]
theorem resultOn_pure (result : α) : (pure result : Lookup ε α).resultOn db = .ok result := rfl

@[simp]
theorem resultOn_fetch (select : Select) : (fetch select).resultOn db = db.answer select := by
  simp only [fetch, resultOn]
  cases db.answer select <;> rfl

@[simp]
theorem resultOn_bind (lookup : Lookup ε α) (rest : α → Lookup ε β) :
    (lookup >>= rest).resultOn db = lookup.resultOn db >>= fun result => (rest result).resultOn db := by
  induction lookup with
  | done result => rfl
  | count counter next ih => exact ih
  | ask select refuse next ih =>
      show (Lookup.bind (.ask select refuse next) rest).resultOn db = _
      simp only [Lookup.bind, resultOn]
      cases db.answer select with
      | error failure => rfl
      | ok rows => exact ih rows

theorem resultOn_bind_of_ok {lookup : Lookup ε α} {found : α} (hfound : lookup.resultOn db = .ok found)
    (rest : α → Lookup ε β) : (lookup >>= rest).resultOn db = (rest found).resultOn db := by
  rw [resultOn_bind, hfound]
  rfl

theorem resultOn_bind_eq_ok {lookup : Lookup ε α} {rest : α → Lookup ε β} {result : β} :
    (lookup >>= rest).resultOn db = .ok result ↔
      ∃ found, lookup.resultOn db = .ok found ∧ (rest found).resultOn db = .ok result := by
  rw [resultOn_bind]
  cases lookup.resultOn db <;> simp [bind, Except.bind]

@[simp]
theorem resultOn_mapError (f : ε → δ) (lookup : Lookup ε α) :
    (lookup.mapError f).resultOn db = (lookup.resultOn db).mapError f := by
  induction lookup with
  | done result => rfl
  | count counter next ih => exact ih
  | ask select refuse next ih =>
      simp only [mapError, resultOn]
      cases db.answer select with
      | error failure => rfl
      | ok rows => exact ih rows

theorem resultOn_mapError_eq_ok {f : ε → δ} {lookup : Lookup ε α} {result : α} :
    (lookup.mapError f).resultOn db = .ok result ↔ lookup.resultOn db = .ok result := by
  rw [resultOn_mapError]
  cases lookup.resultOn db <;> simp [Except.mapError]

@[simp]
theorem resultOn_map (f : α → β) (lookup : Lookup ε α) :
    (f <$> lookup).resultOn db = f <$> lookup.resultOn db := by
  show (lookup >>= fun result => pure (f result)).resultOn db = _
  rw [resultOn_bind]
  cases lookup.resultOn db <;> rfl

/-! ## Pieces -/

theorem flatten_pieces (values : List α) : (pieces values).flatten = values := by
  fun_induction pieces values with
  | case1 => rfl
  | case2 value rest ih =>
      rw [List.flatten_cons, ih, List.cons_append, List.take_append_drop]

theorem ne_nil_of_mem_pieces {values piece : List α} (hpiece : piece ∈ pieces values) : piece ≠ [] := by
  fun_induction pieces values with
  | case1 => cases hpiece
  | case2 value rest ih =>
      rcases List.mem_cons.mp hpiece with rfl | hpiece
      · exact List.cons_ne_nil _ _
      · exact ih hpiece

theorem length_le_of_mem_pieces {values piece : List α} (hpiece : piece ∈ pieces values) :
    piece.length ≤ maxAmong := by
  fun_induction pieces values with
  | case1 => cases hpiece
  | case2 value rest ih =>
      rcases List.mem_cons.mp hpiece with rfl | hpiece
      · simp only [List.length_cons, List.length_take, maxAmong]
        omega
      · exact ih hpiece

theorem mem_pieces {values : List α} {value : α} :
    (∃ piece ∈ pieces values, value ∈ piece) ↔ value ∈ values := by
  rw [← List.mem_flatten, flatten_pieces]

/-- The rows of all pieces, one piece after the other. -/
theorem resultOn_among {select : Select} {column : String} {values : List String}
    {answered : List String → List Record}
    (hanswer : ∀ piece ∈ pieces values,
      db.answer (select.filtered (.oneOf column piece)) = .ok (answered piece)) :
    (among select column values).resultOn db = .ok ((pieces values).flatMap answered) := by
  unfold among
  generalize pieces values = cut at hanswer ⊢
  induction cut with
  | nil => rfl
  | cons piece rest ih =>
      have hrest := ih fun other hother => hanswer other (List.mem_cons_of_mem piece hother)
      have hfirst := (resultOn_fetch _).trans (hanswer piece List.mem_cons_self)
      rw [amongPieces, resultOn_bind_of_ok hfirst, resultOn_bind_of_ok hrest]
      rfl

/-- The rows that pass a test for one of the values, one piece of the values after the
other. -/
def rowsAmong (rows : List Row) (test : String → Row → Bool) (values : List String) : List Row :=
  (pieces values).flatMap fun piece => rows.filter fun row => piece.any fun value => test value row

theorem mem_rowsAmong {rows : List Row} {test : String → Row → Bool} {values : List String} {row : Row} :
    row ∈ rowsAmong rows test values ↔ row ∈ rows ∧ ∃ value ∈ values, test value row = true := by
  simp only [rowsAmong, List.mem_flatMap, List.mem_filter, List.any_eq_true]
  constructor
  · rintro ⟨piece, hpiece, hrow, value, hvalue, htest⟩
    exact ⟨hrow, value, mem_pieces.mp ⟨piece, hpiece, hvalue⟩, htest⟩
  · rintro ⟨hrow, value, hvalue, htest⟩
    obtain ⟨piece, hpiece, hmem⟩ := mem_pieces.mpr hvalue
    exact ⟨piece, hpiece, hrow, value, hmem, htest⟩

/-- Rows are found once each where no row passes for two of the values. -/
theorem nodup_rowsAmong {rows : List Row} {test : String → Row → Bool} {values : List String}
    (hrows : rows.Nodup) (hvalues : values.Nodup)
    (hunique : ∀ row ∈ rows, ∀ first ∈ values, ∀ second ∈ values, test first row = true →
      test second row = true → first = second) : (rowsAmong rows test values).Nodup := by
  have hdisjoint : (pieces values).Pairwise List.Disjoint := by
    have hflat : (pieces values).flatten.Nodup := by rwa [flatten_pieces]
    exact (List.nodup_flatten.mp hflat).2
  refine List.nodup_flatMap.mpr ⟨fun piece hpiece => hrows.filter _, ?_⟩
  apply hdisjoint.imp_of_mem
  intro first second hfirst hsecond hdisjoint row hrow hrow'
  obtain ⟨hmem, hany⟩ := List.mem_filter.mp hrow
  obtain ⟨value, hvalue, htest⟩ := List.any_eq_true.mp hany
  obtain ⟨value', hvalue', htest'⟩ := List.any_eq_true.mp (List.mem_filter.mp hrow').2
  have hsame := hunique row hmem value (mem_pieces.mp ⟨first, hfirst, hvalue⟩) value'
    (mem_pieces.mp ⟨second, hsecond, hvalue'⟩) htest htest'
  exact hdisjoint hvalue (hsame ▸ hvalue')

/-- In how many of the pieces of the values one of them stands. -/
def piecesWith [BEq α] (values : List α) (value : α) : Nat :=
  (pieces values).countP fun piece => piece.contains value

/-- Rows that pass one of two tests, if none passes both. -/
theorem perm_filter_or {first second : α → Bool} {items : List α}
    (hapart : ∀ item ∈ items, ¬ (first item = true ∧ second item = true)) :
    (items.filter first ++ items.filter second).Perm
      (items.filter fun item => first item || second item) := by
  have hsplit := List.filter_append_perm first (items.filter fun item => first item || second item)
  rw [List.filter_filter, List.filter_filter] at hsplit
  have hfirst : (items.filter fun item => first item && (first item || second item)) =
      items.filter first := by
    apply List.filter_congr
    intro item _
    cases first item <;> simp
  have hsecond : (items.filter fun item => !first item && (first item || second item)) =
      items.filter second := by
    apply List.filter_congr
    intro item hitem
    have hnot := hapart item hitem
    cases hpass : first item <;> simp_all
  rwa [hfirst, hsecond] at hsplit

/-- Where no row passes for two of the values, the pieces together find what all values find
at once. -/
theorem perm_rowsAmong {rows : List Row} {test : String → Row → Bool} {values : List String}
    (hunique : values.Pairwise fun first second =>
      ∀ row ∈ rows, ¬ (test first row = true ∧ test second row = true)) :
    (rowsAmong rows test values).Perm (rows.filter fun row => values.any fun value => test value row) := by
  have hcut : ∀ cut : List (List String), cut.flatten.Pairwise (fun first second =>
      ∀ row ∈ rows, ¬ (test first row = true ∧ test second row = true)) →
      (cut.flatMap fun piece => rows.filter fun row => piece.any fun value => test value row).Perm
        (rows.filter fun row => cut.flatten.any fun value => test value row) := by
    intro cut hcut
    induction cut with
    | nil => simp
    | cons piece rest ih =>
        rw [List.flatten_cons, List.pairwise_append] at hcut
        obtain ⟨-, hrest, hapart⟩ := hcut
        simp only [List.flatMap_cons, List.flatten_cons, List.any_append]
        refine ((ih hrest).append_left _).trans (perm_filter_or ?_)
        rintro row hrow ⟨hfirst, hsecond⟩
        obtain ⟨first, hmem, htest⟩ := List.any_eq_true.mp hfirst
        obtain ⟨second, hmem', htest'⟩ := List.any_eq_true.mp hsecond
        exact hapart first hmem second hmem' row hrow ⟨htest, htest'⟩
  have hvalues := hcut (pieces values)
  rw [flatten_pieces] at hvalues
  exact hvalues hunique

/-- What is taken from rows of one value only is found as often as there are pieces with
the value. -/
theorem filterMap_rowsAmong {rows : List Row} {test : String → Row → Bool} {values : List String}
    {value : String} {taken : Row → Option β}
    (htaken : ∀ row ∈ rows, (taken row).isSome = true →
      ∀ other ∈ values, (test other row = true ↔ other = value)) :
    (rowsAmong rows test values).filterMap taken =
      (List.replicate (piecesWith values value) (rows.filterMap taken)).flatten := by
  have hpiece : ∀ piece ∈ pieces values,
      (rows.filter fun row => piece.any fun other => test other row).filterMap taken =
        if piece.contains value then rows.filterMap taken else [] := by
    intro piece hpiece
    have hany : ∀ row ∈ rows, (taken row).isSome = true →
        (piece.any fun other => test other row) = piece.contains value := by
      intro row hrow hsome
      rw [Bool.eq_iff_iff, List.any_eq_true, List.contains_iff_mem]
      have htest : ∀ other ∈ piece, (test other row = true ↔ other = value) := fun other hother =>
        htaken row hrow hsome other (mem_pieces.mp ⟨piece, hpiece, hother⟩)
      constructor
      · rintro ⟨other, hother, hpass⟩
        rwa [← (htest other hother).mp hpass]
      · intro hvalue
        exact ⟨value, hvalue, (htest value hvalue).mpr rfl⟩
    rw [List.filterMap_filter]
    split
    next hmem =>
      apply List.filterMap_congr
      intro row hrow
      cases htake : taken row with
      | none => rw [ite_self]
      | some found => rw [hany row hrow (by simp [htake]), if_pos hmem]
    next hmem =>
      rw [List.filterMap_eq_nil_iff]
      intro row hrow
      cases htake : taken row with
      | none => rw [ite_self]
      | some found => rw [hany row hrow (by simp [htake]), if_neg hmem]
  rw [rowsAmong, List.filterMap_flatMap, List.flatMap_congr hpiece, piecesWith]
  -- Each piece adds everything or nothing.
  induction pieces values with
  | nil => rfl
  | cons piece rest ih =>
      rw [List.flatMap_cons, ih, List.countP_cons]
      split
      · rw [List.replicate_succ, List.flatten_cons]
      · rfl

theorem piecesWith_pos [BEq α] [LawfulBEq α] {values : List α} {value : α} :
    0 < piecesWith values value ↔ value ∈ values := by
  rw [piecesWith, List.countP_pos_iff, ← mem_pieces]
  simp only [List.contains_iff_mem]

/-- There are no more pieces with a value than times that it comes. -/
theorem piecesWith_le_count [BEq α] [LawfulBEq α] (values : List α) (value : α) :
    piecesWith values value ≤ values.count value := by
  have hcut : ∀ cut : List (List α),
      (cut.countP fun piece => piece.contains value) ≤ cut.flatten.count value := by
    intro cut
    induction cut with
    | nil => simp
    | cons piece rest ih =>
        rw [List.countP_cons, List.flatten_cons, List.count_append]
        split
        next hmem =>
          have hpos : 0 < piece.count value :=
            List.count_pos_iff.mpr (List.contains_iff_mem.mp hmem)
          omega
        next => omega
  have hvalues := hcut (pieces values)
  rwa [flatten_pieces] at hvalues

/-- A value that comes once stands in one piece. -/
theorem piecesWith_eq_one [BEq α] [LawfulBEq α] {values : List α} {value : α}
    (hvalues : values.Nodup) (hvalue : value ∈ values) : piecesWith values value = 1 := by
  have hpos := piecesWith_pos.mpr hvalue
  have hle := piecesWith_le_count values value
  rw [List.count_eq_one_of_mem hvalues hvalue] at hle
  omega

/-- A lookup among many values shows the rows that pass for one of them. -/
theorem resultOn_rowsAmong {select : Select} {column : String} {shown : Row → Record}
    {test : String → Row → Bool} {rows : List Row} (values : List String)
    (hanswer : ∀ piece ∈ pieces values, db.answer (select.filtered (.oneOf column piece)) =
      .ok ((rows.filter fun row => piece.any fun value => test value row).map shown)) :
    (among select column values).resultOn db = .ok ((rowsAmong rows test values).map shown) := by
  rw [resultOn_among hanswer, rowsAmong, List.map_flatMap]

end Lookup

end ComicCatalog
