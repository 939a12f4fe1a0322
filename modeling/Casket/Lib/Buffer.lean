import Mathlib.Data.List.Basic

/-! Fixed byte buffers: filling a region in place, and sliding leftovers to the front.
Both are stated on lists, with an index loop where the original is an index loop.
-/

namespace Lib

variable {α : Type*}

/-- `buf[at ..][.. data.len()].copy_from_slice(data)`: overwrite a region in place. -/
def fill (buf : List α) (offset : Nat) (data : List α) : List α :=
  buf.take offset ++ data ++ buf.drop (offset + data.length)

/-- `for n in 0..count { buf[n] = buf[n + offset]; }`, one assignment at a time. -/
def slide (buf : List α) (offset count : Nat) : List α :=
  (List.range count).foldl
    (fun buf n =>
      match buf[n + offset]? with
      | some byte => buf.set n byte
      | none => buf)
    buf

-----------------------------------------------------------------------------------------
-- Filling a region
-----------------------------------------------------------------------------------------

/-- Filling inside the buffer keeps its length. -/
@[simp]
theorem length_fill {buf data : List α} {offset : Nat}
    (fits : offset + data.length ≤ buf.length)
    : (fill buf offset data).length = buf.length := by
  simp only [fill, List.length_append, List.length_take, List.length_drop]
  omega

/-- The front of a filled buffer is the old front followed by the data. -/
theorem take_fill {buf data : List α} {offset : Nat} (fits : offset ≤ buf.length)
    : (fill buf offset data).take (offset + data.length) = buf.take offset ++ data := by
  have front : (buf.take offset ++ data).length = offset + data.length := by
    simp [Nat.min_eq_left fits]
  rw [fill, ← front, List.take_left]

-----------------------------------------------------------------------------------------
-- Sliding leftovers to the front
-----------------------------------------------------------------------------------------

private theorem slide_succ (buf : List α) (offset count : Nat)
    : slide buf offset (count + 1)
      = match (slide buf offset count)[count + offset]? with
        | some byte => (slide buf offset count).set count byte
        | none => slide buf offset count := by
  simp [slide, List.range_succ]

/-- Sliding keeps the length: every assignment is in place. -/
@[simp]
theorem length_slide (buf : List α) (offset count : Nat)
    : (slide buf offset count).length = buf.length := by
  induction count with
  | zero => rfl
  | succ count ih =>
      rw [slide_succ]
      split
      · rw [List.length_set, ih]
      · exact ih

/-- After sliding, position `n` below the count holds the old byte at `n + offset`, and
later positions are untouched. Witness: induction on the loop; the byte read at step
`count` lies at or after every position written so far.
-/
theorem getElem?_slide {buf : List α} {offset count : Nat}
    (fits : offset + count ≤ buf.length) (n : Nat)
    : (slide buf offset count)[n]? = if n < count then buf[n + offset]? else buf[n]? := by
  induction count generalizing n with
  | zero => simp [slide]
  | succ count ih =>
      have earlier := ih (by omega)
      have read : (slide buf offset count)[count + offset]? = buf[count + offset]? := by
        rw [earlier]
        exact if_neg (by omega)
      rw [slide_succ, read, List.getElem?_eq_getElem (show count + offset < buf.length by omega)]
      simp only [List.getElem?_set, length_slide, earlier]
      split
      · next same =>
          subst same
          simp [show count < buf.length by omega, show count + offset < buf.length by omega]
      · next other =>
          by_cases below : n < count
          · simp [below, show n < count + 1 by omega]
          · simp [below, show ¬n < count + 1 by omega]

/-- The slid front is exactly the old bytes from the offset on. -/
theorem take_slide {buf : List α} {offset count : Nat}
    (fits : offset + count ≤ buf.length)
    : (slide buf offset count).take count = (buf.drop offset).take count := by
  apply List.ext_getElem?
  intro n
  by_cases below : n < count
  · simp [getElem?_slide fits, below, Nat.add_comm]
  · have past := Nat.le_of_not_lt below
    rw [List.getElem?_take_eq_none past, List.getElem?_take_eq_none past]

/-- Keeping the bytes from `used` on, slid to the front, of the `filled` ones. -/
theorem take_slide_rest {buf : List α} {used filled : Nat} (within : used ≤ filled)
    (fits : filled ≤ buf.length)
    : (slide buf used (filled - used)).take (filled - used) = (buf.take filled).drop used := by
  rw [take_slide (by omega), List.drop_take]

/-- Sliding what a write did not accept and truncating drops what it accepted. -/
theorem take_slide_written (buf : List α) (written : Nat)
    : (slide buf written (buf.length - written)).take (buf.length - written)
      = buf.drop written := by
  by_cases within : written ≤ buf.length
  · rw [take_slide_rest within (Nat.le_refl _), List.take_length]
  · have none : buf.length - written = 0 := by omega
    rw [none, List.take_zero, List.drop_eq_nil_of_le (by omega)]

end Lib
