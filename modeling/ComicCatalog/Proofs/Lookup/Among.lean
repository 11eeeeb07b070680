import ComicCatalog.Proofs.Lookup.Courses
import ComicCatalog.Proofs.Lookup.Outcome
import Mathlib.Algebra.Order.Floor.Div

/-! # Selects among many values

A lookup among many values asks one select for each piece of them, in their order, and
finds the rows of all of them. There are as many pieces as it takes to divide the values
into pieces that are not too long, and none is empty.
-/

namespace ComicCatalog

namespace Lookup

/-- There are no more pieces than it takes. -/
theorem length_pieces {α : Type} (values : List α) :
    (pieces values).length = values.length ⌈/⌉ maxAmong := by
  fun_induction pieces values with
  | case1 => exact (zero_ceilDiv maxAmong).symm
  | case2 value rest ih =>
      rw [List.length_cons, ih, List.length_drop, List.length_cons, Nat.ceilDiv_eq_add_pred_div,
        Nat.ceilDiv_eq_add_pred_div, maxAmong]
      omega

/-- The selects for the pieces of a list of values, each with the rows it is answered. -/
def amongExchanges (select : Select) (column : String) (values : List String)
    (answers : List (List Record)) : List Exchange :=
  (pieces values).zipWith (fun piece rows => (select.filtered (.oneOf column piece), .ok rows)) answers

/-- A lookup among many values has its result from one answered select for each piece. -/
theorem course_among {select : Select} {column : String} {values : List String}
    {exchanges : List Exchange} {counted : Tally} {rows : List Record}
    (hcourse : Course (among select column values) exchanges counted (.ok rows)) :
    ∃ answers : List (List Record), answers.length = values.length ⌈/⌉ maxAmong ∧
      exchanges = amongExchanges select column values answers ∧ counted = [] ∧
      rows = answers.flatten := by
  rw [← length_pieces]
  unfold among at hcourse
  unfold amongExchanges
  generalize pieces values = cut at hcourse
  induction cut generalizing exchanges counted rows with
  | nil =>
      obtain ⟨rfl, rfl, hrows⟩ := hcourse.of_pure
      cases hrows
      exact ⟨[], rfl, rfl, rfl, rfl⟩
  | cons piece rest ih =>
      obtain ⟨first, _, _, _, _, hfetch, hmore, rfl, rfl⟩ := hcourse.of_bind_ok
      obtain ⟨others, _, _, _, _, hrest, hpure, rfl, rfl⟩ := hmore.of_bind_ok
      obtain ⟨rfl, rfl⟩ := hfetch.of_fetch
      obtain ⟨rfl, rfl, hrows⟩ := hpure.of_pure
      obtain ⟨answers, hlength, rfl, rfl, rfl⟩ := ih hrest
      cases hrows
      refine ⟨first :: answers, congrArg Nat.succ hlength, ?_, rfl, rfl⟩
      simp

end Lookup

end ComicCatalog
