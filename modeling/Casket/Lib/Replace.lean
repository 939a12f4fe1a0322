import Mathlib.Data.List.Basic

/-! Replacing one character of a text by another acts on each character alone.
The search behind `replace` covers a text by matches and by stretches without one.
-/

namespace Lib

open String.Slice.Pattern String.Slice.Pattern.Model

/-- One character in place of another. -/
def swapChar (old new c : Char) : Char := if c = old then new else c

/-- A text without the old character stays as it is. -/
theorem map_swapChar {old new : Char} {chars : List Char} (free : old ∉ chars)
    : chars.map (swapChar old new) = chars := by
  conv_rhs => rw [← List.map_id chars]
  refine List.map_congr_left fun c member => if_neg ?_
  rintro rfl
  exact free member

/-- What `replace` makes of one step of a search. -/
def replaceStep {slice : String.Slice} (replacement : String) (sofar : String)
    : SearchStep slice → String
  | .matched .. => sofar ++ replacement.toSlice
  | .rejected start stop => sofar ++ slice.slice! start stop

/-- The text between two positions, of which the first is not behind the second. -/
theorem copy_slice_between {slice : String.Slice} {start stop : slice.Pos} {middle : String}
    (ordered : start ≤ stop)
    (left : (slice.sliceTo stop).copy = (slice.sliceTo start).copy ++ middle)
    (right : (slice.sliceFrom start).copy = middle ++ (slice.sliceFrom stop).copy)
    : (slice.slice! start stop).copy = middle := by
  rw [← String.Slice.slice_eq_slice! (h := ordered)]
  have before := start.splits
  rw [right] at before
  have behind := stop.splits
  rw [left] at behind
  exact (String.Slice.copy_slice_eq_iff_splits.mpr ⟨_, _, before, behind⟩).choose_spec

/-- A stretch without a match has no copy of the one character that is searched. -/
theorem not_mem_of_not_matchesAt {slice : String.Slice} {start stop : slice.Pos}
    {old : Char} {middle : String}
    (free
      : ∀ pos, start ≤ pos → pos < stop → ¬ MatchesAt (String.singleton old) pos)
    (left : (slice.sliceTo stop).copy = (slice.sliceTo start).copy ++ middle)
    (right : (slice.sliceFrom start).copy = middle ++ (slice.sliceFrom stop).copy)
    : old ∉ middle.toList := by
  intro member
  obtain ⟨front, back, parts⟩ := List.append_of_mem member
  let found := String.singleton old ++ String.ofList back
  have filled : found ≠ "" := fun empty => by
    have none_ := congrArg String.toList empty
    simp [found] at none_
  have whole : middle = String.ofList front ++ found := by
    rw [← String.toList_inj, parts]
    simp [found]
  rw [whole] at left right
  obtain ⟨pos, splits⟩ : ∃ pos : slice.Pos,
      pos.Splits ((slice.sliceTo start).copy ++ String.ofList front)
        (found ++ (slice.sliceFrom stop).copy) := by
    have before := start.splits
    rw [right, String.append_assoc] at before
    exact ⟨_, before.splits_rotateRight⟩
  refine free pos ?_ ?_ ?_
  · exact (start.splits.le_iff_exists_eq_append splits).mpr
      ⟨_, rfl, right.trans (String.append_assoc ..)⟩
  · exact (splits.lt_iff_exists_eq_append stop.splits).mpr
      ⟨found, filled, left.trans (String.append_assoc ..).symm, rfl⟩
  · rw [String.append_assoc] at splits
    exact ForwardStringSearcher.matchesAt_iff_splits.mpr ⟨_, _, splits⟩

/-- The steps of a search add the rest of the text, with each character swapped.
Witness: induction on the search.
-/
theorem toList_replaceSteps {slice : String.Slice} {old new : Char} {start : slice.Pos}
    {steps : List (SearchStep slice)}
    (valid : IsValidSearchFrom (String.singleton old) start steps) (sofar : String)
    : (steps.foldl (replaceStep (String.singleton new)) sofar).toList
      = sofar.toList ++ (slice.sliceFrom start).copy.toList.map (swapChar old new) := by
  induction valid generalizing sofar with
  | endPos => simp
  | @matched rest start stop found _ ih =>
      obtain ⟨front, back, before, behind⟩ :=
        ForwardStringSearcher.isLongestMatchAt_iff_splits.mp found
      rw [List.foldl_cons, ih, before.copy_sliceFrom_eq, behind.copy_sliceFrom_eq]
      simp [replaceStep, swapChar]
  | @mismatched rest start stop forward free _ ih =>
      have ordered := Std.le_of_lt forward
      obtain ⟨middle, left, right⟩ :=
        (start.splits.le_iff_exists_eq_append stop.splits).mp ordered
      have cut := copy_slice_between ordered left right
      have clear := @map_swapChar _ new _ (not_mem_of_not_matchesAt free left right)
      rw [List.foldl_cons, ih, right]
      simp [replaceStep, cut, clear]

/-- Replacing one character by another acts on each character. -/
theorem toList_replace (text : String) (old new : Char)
    : (text.replace (String.singleton old) (String.singleton new)).toList
      = text.toList.map (swapChar old new) := by
  have searched : String.singleton old ≠ "" := by simp
  have valid :=
    (ForwardStringSearcher.lawfulToForwardSearcherModel searched).isValidSearchFrom_toList
      text.toSlice
  have steps := @toList_replaceSteps _ _ new _ _ valid ""
  simp only [Std.Iter.foldl_toList, String.toList_empty, List.nil_append,
    String.Slice.sliceFrom_startPos, String.copy_toSlice] at steps
  rw [← steps, String.replace, String.Slice.replace]
  congr 2
  funext sofar step
  cases step <;> rfl

end Lib
