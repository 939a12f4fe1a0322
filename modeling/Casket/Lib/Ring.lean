import Mathlib.Data.List.Rotate

/-! Round robin over members that can be gone.
A ring is a list whose head is offered the next value. Members found gone are dropped, and
the member that takes the value moves to the end.
-/

namespace Lib

open scoped List

variable {α : Type*}

/-- Offer one value around a ring: the member that takes it, if any, and the ring after. -/
def offer (alive : α → Bool) : List α → Option α × List α
  | [] => (none, [])
  | head :: rest => if alive head then (some head, rest ++ [head]) else offer alive rest

/-- Members that stay around keep their cyclic order in any part of a ring.
Witness: a rotation swaps the two halves of the ring, and filters act on each half.
-/
theorem isRotated_filter {ring other : List α} (turned : ring ~r other) (keep : α → Bool)
    : ring.filter keep ~r other.filter keep := by
  obtain ⟨turns, within, rfl⟩ := List.isRotated_iff_mod.mp turned
  rw [List.rotate_eq_drop_append_take within, List.filter_append]
  conv_lhs => rw [← List.take_append_drop turns ring, List.filter_append]
  exact List.isRotated_append

section Offer

variable (alive : α → Bool)

/-- A value goes to the first member that is alive, by ring induction. -/
theorem offer_taker (ring : List α)
    : (offer alive ring).1 = (ring.filter alive).head? := by
  induction ring with
  | nil => rfl
  | cons head rest ih =>
      simp only [offer, List.filter_cons]
      split
      · rfl
      · exact ih

/-- An offer turns the members that are alive by one place, by ring induction. -/
theorem offer_filter (ring : List α)
    : (offer alive ring).2.filter alive = (ring.filter alive).rotate 1 := by
  induction ring with
  | nil => rfl
  | cons head rest ih =>
      simp only [offer, List.filter_cons]
      split
      · next up =>
          simp only [List.filter_append, List.filter_cons, up, if_true, List.filter_nil,
            List.rotate_cons_succ, List.rotate_zero]
      · exact ih

end Offer

-----------------------------------------------------------------------------------------
-- Rings kept as a list and a place in it
-----------------------------------------------------------------------------------------

/-- A ring read from a place starts with the member there. -/
theorem rotate_getElem {ring : List α} {place : Nat} (within : place < ring.length)
    : ring.rotate place = ring[place] :: (ring.drop (place + 1) ++ ring.take place) := by
  rw [List.rotate_eq_drop_append_take within.le, List.drop_eq_getElem_cons within,
    List.cons_append]

/-- Without the member at its place a ring reads on from the next one. -/
theorem eraseIdx_rotate {ring : List α} {place : Nat} (within : place < ring.length)
    : (ring.eraseIdx place).rotate place = (ring.rotate place).tail := by
  have shorter := List.length_eraseIdx_of_lt within
  have front : (ring.take place).length = place := List.length_take_of_le within.le
  rw [rotate_getElem within, List.tail_cons,
    List.rotate_eq_drop_append_take (by omega), List.eraseIdx_eq_take_drop_succ,
    List.drop_left' front, List.take_left' front]

/-- Erasing a member that a filter drops does not change what it keeps. -/
theorem eraseIdx_filter {ring : List α} {place : Nat} (within : place < ring.length)
    {keep : α → Bool} (dropped : ¬ keep ring[place])
    : (ring.eraseIdx place).filter keep = ring.filter keep := by
  conv_rhs => rw [← List.take_append_drop place ring, List.drop_eq_getElem_cons within]
  simp only [List.eraseIdx_eq_take_drop_succ, List.filter_append, List.filter_cons,
    dropped, Bool.false_eq_true, if_false]

/-- The member at the head of a turned ring is found by its place modulo the length. -/
theorem rotate_head? {ring : List α} (filled : ring ≠ []) (place : Nat)
    : (ring.rotate place).head? = ring[place % ring.length]? := by
  rw [← List.rotate_mod]
  exact List.head?_rotate (Nat.mod_lt _ (List.length_pos_iff.mpr filled))

end Lib
