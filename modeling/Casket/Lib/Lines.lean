import Mathlib.Data.List.Basic
import Mathlib.Data.List.TakeWhile

/-! Splitting a list at a separator of two elements, as text is split at line ends, reading
the pieces up to the first of a kind, and cutting a list after each copy of one element, as
text is cut into lines that keep their ends. Splitting at one element is that of the library,
with what its parts are free of.
-/

namespace Lib

variable {α : Type*} [DecidableEq α]

/-- The pieces between the places where `first` is followed by `second`, from the left. -/
def splitPair (first second : α) : List α → List (List α)
  | [] => [[]]
  | [item] => [[item]]
  | item :: next :: rest =>
      if item = first ∧ next = second then
        [] :: splitPair first second rest
      else
        match splitPair first second (next :: rest) with
        | [] => [[item]]
        | piece :: pieces => (item :: piece) :: pieces

/-- There is always a piece. -/
theorem splitPair_ne_nil (first second : α) (items : List α)
    : splitPair first second items ≠ [] := by
  match items with
  | [] => simp [splitPair]
  | [_] => simp [splitPair]
  | item :: next :: rest =>
      rw [splitPair]
      split
      · simp
      · split <;> simp

/-- A separator ends a piece, whatever stands before it. Witness: induction on what does. -/
theorem splitPair_append {first second : α} (distinct : first ≠ second)
    (front back : List α)
    : splitPair first second (front ++ first :: second :: back)
      = splitPair first second front ++ splitPair first second back := by
  match front with
  | [] => simp [splitPair]
  | [item] =>
      have apart : ¬ (item = first ∧ first = second) := fun both => distinct both.2
      simp [splitPair, apart]
  | item :: next :: rest =>
      rw [List.cons_append, List.cons_append, splitPair, splitPair]
      by_cases separator : item = first ∧ next = second
      · rw [if_pos separator, if_pos separator, splitPair_append distinct rest back]
        rfl
      · rw [if_neg separator, if_neg separator, ← List.cons_append,
          splitPair_append distinct (next :: rest) back]
        rcases pieces : splitPair first second (next :: rest) with - | ⟨piece, more⟩
        · exact absurd pieces (splitPair_ne_nil first second (next :: rest))
        · rfl

/-- A list without the first half of the separator is one piece, by induction. -/
theorem splitPair_of_not_mem {first second : α} {items : List α} (free : first ∉ items)
    : splitPair first second items = [items] := by
  match items with
  | [] => rfl
  | [_] => rfl
  | item :: next :: rest =>
      have apart : ¬ (item = first ∧ next = second) := fun both => by simp [both.1] at free
      rw [splitPair, if_neg apart, splitPair_of_not_mem (List.not_mem_of_not_mem_cons free)]

omit [DecidableEq α] in
/-- What stands before some item is all that is taken up to it exactly when the taking does
not stop earlier.
-/
theorem takeWhile_append_cons_iff {test : α → Bool} {front back : List α} {item : α}
    (stops : ¬ test item)
    : (front ++ item :: back).takeWhile test = front ↔ ∀ other ∈ front, test other := by
  constructor
  · intro same other mem
    rw [← same] at mem
    exact List.mem_takeWhile_imp mem
  · intro passes
    rw [List.takeWhile_append_of_pos passes, List.takeWhile_cons_of_neg stops,
      List.append_nil]

/-- The pieces of a list that end after each `last`; what follows the last one is a piece
if it is not empty.
-/
def cutAfter (last : α) : List α → List (List α)
  | [] => []
  | item :: rest =>
      if item = last then
        [item] :: cutAfter last rest
      else
        match cutAfter last rest with
        | [] => [[item]]
        | piece :: pieces => (item :: piece) :: pieces

/-- Without a `last` all is one piece, by induction. -/
theorem cutAfter_of_not_mem {last item : α} {rest : List α} (free : last ∉ item :: rest)
    : cutAfter last (item :: rest) = [item :: rest] := by
  induction rest generalizing item with
  | nil =>
      have other : item ≠ last := fun same => free (same ▸ List.mem_cons_self)
      simp [cutAfter, other]
  | cons next rest ih =>
      have other : item ≠ last := fun same => free (same ▸ List.mem_cons_self)
      rw [cutAfter, if_neg other, ih (List.not_mem_of_not_mem_cons free)]

/-- The first piece of a list with a `last` in it has it, by induction. -/
theorem mem_head_cutAfter {last : α} {items : List α} (found : last ∈ items)
    : ∃ piece pieces, cutAfter last items = piece :: pieces ∧ last ∈ piece := by
  induction items with
  | nil => cases found
  | cons item rest ih =>
      rw [cutAfter]
      by_cases same : item = last
      · rw [if_pos same]
        exact ⟨[item], cutAfter last rest, rfl, same ▸ List.mem_cons_self⟩
      · rw [if_neg same]
        have later : last ∈ rest := (List.mem_cons.mp found).resolve_left (Ne.symm same)
        obtain ⟨piece, pieces, cut, inside⟩ := ih later
        rw [cut]
        exact ⟨item :: piece, pieces, rfl, List.mem_cons_of_mem item inside⟩

/-- The parts between separators have none in them, by induction on the list. -/
theorem not_mem_of_mem_splitOn {separator : α} {items : List α}
    : ∀ part ∈ items.splitOn separator, separator ∉ part := by
  induction items with
  | nil => simp
  | cons first rest ih =>
      rw [List.splitOn_cons_eq_if_modifyHead]
      split
      · simpa using ih
      · next other =>
          obtain ⟨head, tail, parts⟩ :=
            List.exists_cons_of_ne_nil (List.splitOn_ne_nil separator rest)
          rw [parts, List.forall_mem_cons] at ih
          rw [parts, List.modifyHead_cons, List.forall_mem_cons]
          have apart : separator ≠ first := fun same => other (by simp [same])
          exact ⟨fun member => (List.mem_cons.mp member).elim apart ih.1, ih.2⟩

end Lib
