import ComicCatalog.Proofs.Number.Rounding
import ComicCatalog.Proofs.Store.Answers
import Mathlib.Data.List.Sort
import Mathlib.Data.Prod.Lex
import Mathlib.Order.WithBot

/-! # The order of cells

Cells are ordered by their kind, numbers among themselves by value, and texts and blobs
byte by byte. All of it is the order of one key, so it is a linear preorder, and sorting
by a column puts no row before one that belongs ahead of it.
-/

namespace ComicCatalog

theorem compares_compare {α : Type} [LinearOrder α] (a b : α) : (compare a b).Compares a b := by
  cases hcompare : compare a b with
  | lt => exact compare_lt_iff_lt.mp hcompare
  | eq => exact compare_eq_iff_eq.mp hcompare
  | gt => exact compare_gt_iff_gt.mp hcompare

/-! ## Numbers -/

namespace Binary64

/-- A finite number with its sign. -/
def signed (x : Binary64) : ℚ :=
  if x.negative then -x.magnitude else x.magnitude

/-- The value of a number; one that is not finite, which in a table is an infinity, lies
beyond all others on its side. -/
def value (x : Binary64) : WithBot (WithTop ℚ) :=
  if x.isFinite then ((x.signed : WithTop ℚ) : WithBot (WithTop ℚ))
  else if x.negative then ⊥ else ⊤

theorem signedRatio_pos (x : Binary64) : (0 : ℚ) < x.signedRatio.2 := by
  have hpos : 0 < power 2 (-x.scale) := power_pos (by norm_num) _
  exact_mod_cast hpos

theorem signed_eq (x : Binary64) : x.signed = x.signedRatio.1 / x.signedRatio.2 := by
  have hpower := power_div_power 2 (by norm_num) x.scale
  push_cast at hpower
  unfold signed signedRatio magnitude ratio
  rw [← hpower]
  split
  · push_cast
    ring
  · push_cast
    ring

theorem strictMono_coe : StrictMono fun q : ℚ => ((q : WithTop ℚ) : WithBot (WithTop ℚ)) :=
  WithBot.coe_strictMono.comp WithTop.coe_strictMono

theorem coe_lt_top (q : ℚ) : ((q : WithTop ℚ) : WithBot (WithTop ℚ)) < ⊤ :=
  WithBot.coe_lt_coe.mpr (WithTop.coe_lt_top q)

/-- Ratios are compared by whole numbers once they have one denominator. -/
theorem compares_of_scaled {a b : Int} {p q d : ℚ} (hd : 0 < d) (hp : p * d = a) (hq : q * d = b) :
    (compare a b).Compares ((p : WithTop ℚ) : WithBot (WithTop ℚ))
      ((q : WithTop ℚ) : WithBot (WithTop ℚ)) := by
  have hcast : (compare a b).Compares (p * d) (q * d) := by
    rw [hp, hq]
    exact Int.cast_strictMono.compares.mpr (compares_compare a b)
  exact strictMono_coe.compares.mpr ((strictMono_mul_right_of_pos hd).compares.mp hcast)

/-- Whole numbers and others are compared by value. -/
theorem compareInt_compares (n : Int) (x : Binary64) :
    (compareInt n x).Compares (((n : ℚ) : WithTop ℚ) : WithBot (WithTop ℚ)) x.value := by
  have hden := x.signedRatio_pos
  unfold compareInt value
  split
  · rw [signed_eq]
    refine compares_of_scaled hden (by push_cast; rfl) ?_
    rw [div_mul_cancel₀ _ hden.ne']
  · split
    · exact WithBot.bot_lt_coe _
    · exact coe_lt_top _

theorem order_compares (x y : Binary64) : (order x y).Compares x.value y.value := by
  have hx := x.signedRatio_pos
  have hy := y.signedRatio_pos
  unfold order value
  cases x.isFinite <;> cases y.isFinite
  · cases x.negative <;> cases y.negative <;> simp [Ordering.Compares]
  · cases x.negative <;> simp [Ordering.Compares, coe_lt_top]
  · cases y.negative <;> simp [Ordering.Compares, coe_lt_top]
  · simp only [if_true]
    rw [signed_eq, signed_eq]
    refine compares_of_scaled (mul_pos hx hy) ?_ ?_
    · push_cast
      field_simp
    · push_cast
      field_simp

end Binary64

/-! ## Bytes -/

/-- Bytes are ordered as lists of numbers. -/
theorem Bytes.compare_compares (s t : Bytes) :
    (Bytes.compare s t).Compares (s.map UInt8.toNat) (t.map UInt8.toNat) := by
  induction s generalizing t with
  | nil =>
      cases t with
      | nil => rfl
      | cons b bs => exact List.nil_lt_cons _ _
  | cons a as ih =>
      cases t with
      | nil => exact List.nil_lt_cons _ _
      | cons b bs =>
          have hfirst := compares_compare a.toNat b.toNat
          rw [Bytes.compare, List.map_cons, List.map_cons]
          cases hcompare : Ord.compare a.toNat b.toNat with
          | lt =>
              rw [hcompare] at hfirst
              exact List.cons_lt_cons_iff.mpr (Or.inl hfirst)
          | gt =>
              rw [hcompare] at hfirst
              exact List.cons_lt_cons_iff.mpr (Or.inl hfirst)
          | eq =>
              have hsame : a.toNat = b.toNat := by rwa [hcompare] at hfirst
              have hcons : StrictMono fun list : List ℕ => b.toNat :: list := by
                intro first second hlt
                exact List.cons_lt_cons_iff.mpr (Or.inr ⟨rfl, hlt⟩)
              rw [hsame, Ordering.eq_then]
              exact hcons.compares.mpr (ih bs)

/-! ## Cells -/

namespace Cell

/-- The place of a cell among others: its kind, its value if it is a number, and its bytes
if it is a text or a blob. -/
def sortKey : Cell → ℕ ×ₗ WithBot (WithTop ℚ) ×ₗ List ℕ
  | .null => toLex (0, toLex (⊥, []))
  | .integer n => toLex (1, toLex ((((n : ℚ) : WithTop ℚ) : WithBot (WithTop ℚ)), []))
  | .real x => toLex (1, toLex (x.value, []))
  | .text bytes => toLex (2, toLex (⊥, bytes.map UInt8.toNat))
  | .blob bytes => toLex (3, toLex (⊥, bytes.map UInt8.toNat))

theorem strictMono_numbers (kind : ℕ) :
    StrictMono fun value : WithBot (WithTop ℚ) =>
      (toLex (kind, toLex (value, [])) : ℕ ×ₗ WithBot (WithTop ℚ) ×ₗ List ℕ) := by
  intro first second hlt
  exact Prod.Lex.toLex_lt_toLex.mpr (Or.inr ⟨rfl, Prod.Lex.toLex_lt_toLex.mpr (Or.inl hlt)⟩)

theorem strictMono_bytes (kind : ℕ) :
    StrictMono fun bytes : List ℕ =>
      (toLex (kind, toLex (⊥, bytes)) : ℕ ×ₗ WithBot (WithTop ℚ) ×ₗ List ℕ) := by
  intro first second hlt
  exact Prod.Lex.toLex_lt_toLex.mpr (Or.inr ⟨rfl, Prod.Lex.toLex_lt_toLex.mpr (Or.inr ⟨rfl, hlt⟩)⟩)

theorem fst_sortKey (cell : Cell) : (ofLex cell.sortKey).1 = cell.rank := by
  cases cell <;> rfl

/-- Cells of different kinds are ordered by kind. -/
theorem order_of_rank_ne {a b : Cell} (hne : a.rank ≠ b.rank) : a.order b = compare a.rank b.rank := by
  cases a <;> cases b <;> first | rfl | exact absurd rfl hne

/-- The order of cells is that of their keys. -/
theorem order_compares (a b : Cell) : (a.order b).Compares a.sortKey b.sortKey := by
  by_cases hrank : a.rank = b.rank
  · cases a with
    | null =>
        cases b with
        | null => rfl
        | _ => simp [rank] at hrank
    | integer m =>
        cases b with
        | integer n =>
            refine (strictMono_numbers 1).compares.mpr (Binary64.strictMono_coe.compares.mpr ?_)
            exact Int.cast_strictMono.compares.mpr (compares_compare m n)
        | real y => exact (strictMono_numbers 1).compares.mpr (Binary64.compareInt_compares m y)
        | _ => simp [rank] at hrank
    | real x =>
        cases b with
        | integer n =>
            refine (strictMono_numbers 1).compares.mpr (Ordering.compares_swap.mpr ?_)
            exact Binary64.compareInt_compares n x
        | real y => exact (strictMono_numbers 1).compares.mpr (Binary64.order_compares x y)
        | _ => simp [rank] at hrank
    | text s =>
        cases b with
        | text t => exact (strictMono_bytes 2).compares.mpr (Bytes.compare_compares s t)
        | _ => simp [rank] at hrank
    | blob s =>
        cases b with
        | blob t => exact (strictMono_bytes 3).compares.mpr (Bytes.compare_compares s t)
        | _ => simp [rank] at hrank
  · -- Cells of different kinds are compared by their ranks, which come first in the keys.
    have hranks := compares_compare a.rank b.rank
    rw [order_of_rank_ne hrank]
    cases hcompare : compare a.rank b.rank with
    | lt =>
        rw [hcompare, ← fst_sortKey, ← fst_sortKey] at hranks
        exact Prod.Lex.lt_iff.mpr (Or.inl hranks)
    | eq => exact absurd (compare_eq_iff_eq.mp hcompare) hrank
    | gt =>
        rw [hcompare, ← fst_sortKey, ← fst_sortKey] at hranks
        exact Prod.Lex.lt_iff.mpr (Or.inl hranks)

end Cell

/-! ## Sorted rows -/

/-- Read in the direction, the first cell belongs ahead of the second one. -/
def Direction.Ahead (direction : Direction) (a b : Cell) : Prop :=
  match direction with
  | .ascending => a.sortKey < b.sortKey
  | .descending => b.sortKey < a.sortKey

/-- What is compared by a key is read in the direction of the key. -/
theorem Direction.isLE_apply_of_compares {κ : Type} [LinearOrder κ] (direction : Direction)
    {order : Ordering} {x y : κ} (hcompares : order.Compares x y) :
    (direction.apply order).isLE = true ↔
      match direction with
      | .ascending => x ≤ y
      | .descending => y ≤ x := by
  cases direction with
  | ascending =>
      rw [← hcompares.ne_gt]
      exact Ordering.isLE_iff_ne_gt
  | descending =>
      rw [← hcompares.ne_lt]
      cases order <;> simp [apply]

theorem Direction.isLE_apply_iff (direction : Direction) (a b : Cell) :
    (direction.apply (a.order b)).isLE = true ↔ ¬ direction.Ahead b a := by
  rw [direction.isLE_apply_of_compares (Cell.order_compares a b)]
  cases direction with
  | ascending => exact not_lt.symm
  | descending => exact not_lt.symm

theorem Direction.not_ahead_trans {direction : Direction} {a b c : Cell}
    (hfirst : ¬ direction.Ahead b a) (hsecond : ¬ direction.Ahead c b) : ¬ direction.Ahead c a := by
  cases direction with
  | ascending => exact not_lt.mpr ((not_lt.mp hfirst).trans (not_lt.mp hsecond))
  | descending => exact not_lt.mpr ((not_lt.mp hsecond).trans (not_lt.mp hfirst))

theorem Direction.not_ahead_total (direction : Direction) (a b : Cell) :
    ¬ direction.Ahead b a ∨ ¬ direction.Ahead a b := by
  cases direction with
  | ascending => exact (le_total a.sortKey b.sortKey).imp not_lt.mpr not_lt.mpr
  | descending => exact (le_total b.sortKey a.sortKey).imp not_lt.mpr not_lt.mpr

namespace Database

/-- Rows that are sorted by a column stand in its order. -/
theorem pairwise_sorted {table : Table} {select : Select} {sort : SortBy} {slot : Slot}
    (horder : select.order = some sort) (hslot : table.slot? sort.column = some slot)
    (rows : List Row) :
    (sorted table select rows).Pairwise fun a b =>
      ¬ sort.direction.Ahead (b.cell slot) (a.cell slot) := by
  have htrans : ∀ a b c : Row, (sort.direction.apply ((a.cell slot).order (b.cell slot))).isLE = true →
      (sort.direction.apply ((b.cell slot).order (c.cell slot))).isLE = true →
        (sort.direction.apply ((a.cell slot).order (c.cell slot))).isLE = true := by
    intro a b c
    simp only [Direction.isLE_apply_iff]
    exact Direction.not_ahead_trans
  have htotal : ∀ a b : Row, ((sort.direction.apply ((a.cell slot).order (b.cell slot))).isLE ||
      (sort.direction.apply ((b.cell slot).order (a.cell slot))).isLE) = true := by
    intro a b
    simp only [Bool.or_eq_true, Direction.isLE_apply_iff]
    exact sort.direction.not_ahead_total _ _
  simp only [sorted, horder, hslot]
  exact (List.pairwise_mergeSort htrans htotal _).imp fun hle =>
    (sort.direction.isLE_apply_iff _ _).mp hle

end Database

end ComicCatalog
