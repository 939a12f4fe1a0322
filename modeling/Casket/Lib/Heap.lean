import Mathlib.Data.List.MinMax
import Mathlib.Data.List.Sort

/-! Draining a queue of entries by a key: the earliest entry is taken again and again until
it is past a bound. Which of several earliest entries comes first is left open.
-/

namespace Lib

variable {α κ : Type*} [LinearOrder κ]

/-- An entry that no other is before. -/
def Earliest (key : α → κ) (heap : List α) (entry : α) : Prop :=
  entry ∈ heap ∧ ∀ other ∈ heap, key entry ≤ key other

/-- What is found at the front of a heap. -/
def Peeks (key : α → κ) (heap : List α) : Option α → Prop
  | none => heap = []
  | some entry => Earliest key heap entry

/-- Something is found at the front. -/
theorem exists_peeks (key : α → κ) (heap : List α) : ∃ peeked, Peeks key heap peeked := by
  cases first : heap.argmin key with
  | none => exact ⟨none, List.argmin_eq_none.mp first⟩
  | some entry =>
      exact ⟨some entry, List.argmin_mem first, fun other member =>
        List.le_of_mem_argmin member first⟩

variable [DecidableEq α]

/-- The entries popped from a heap until it is empty, or until its earliest entry is past the
bound, and what is left.
-/
inductive Drains (key : α → κ) (bound : κ) : List α → List α → List α → Prop
  | empty : Drains key bound [] [] []
  | stop {heap entry} (first : Earliest key heap entry) (past : bound < key entry)
    : Drains key bound heap [] heap
  | pop {heap entry popped rest} (first : Earliest key heap entry)
    (due : key entry ≤ bound) (more : Drains key bound (heap.erase entry) popped rest)
    : Drains key bound heap (entry :: popped) rest

/-- Erasing an entry that a filter drops does not change what it keeps. -/
theorem erase_filter {heap : List α} {entry : α} {keep : α → Bool} (dropped : ¬ keep entry)
    : (heap.erase entry).filter keep = heap.filter keep := by
  by_cases member : entry ∈ heap
  · obtain ⟨front, back, -, split, erased⟩ := List.exists_erase_eq member
    rw [erased, split]
    simp [List.filter_append, dropped]
  · rw [List.erase_of_not_mem member]

/-- Erasing an entry that a filter keeps takes it from what is kept. -/
theorem filter_perm_cons_erase {heap : List α} {entry : α} {keep : α → Bool}
    (member : entry ∈ heap) (kept : keep entry)
    : (heap.filter keep).Perm (entry :: (heap.erase entry).filter keep) := by
  have split := (List.perm_cons_erase member).filter keep
  rwa [List.filter_cons_of_pos kept] at split

/-- A drained heap gave the entries that were due, each once and in order, and kept the
others. Witness: induction on the pops.
-/
theorem Drains.spec {key : α → κ} {bound : κ} {heap popped rest : List α}
    (drains : Drains key bound heap popped rest)
    : popped.Perm (heap.filter (key · ≤ bound))
      ∧ popped.Pairwise (key · ≤ key ·)
      ∧ rest = heap.filter (bound < key ·) := by
  induction drains with
  | empty => exact ⟨.nil, .nil, rfl⟩
  | @stop heap entry first past =>
      have late : ∀ other ∈ heap, bound < key other := fun other member =>
        past.trans_le (first.2 other member)
      refine ⟨?_, .nil, ?_⟩
      · rw [List.filter_eq_nil_iff.mpr fun other member => by simpa using late other member]
      · exact (List.filter_eq_self.mpr fun other member => by
          simpa using late other member).symm
  | @pop heap entry popped rest first due more ih =>
      obtain ⟨given, sorted, left⟩ := ih
      refine ⟨?_, ?_, ?_⟩
      · exact (given.cons entry).trans
          (filter_perm_cons_erase first.1 (by simpa using due)).symm
      · refine List.pairwise_cons.mpr ⟨fun other member => ?_, sorted⟩
        exact first.2 other
          (List.mem_of_mem_erase (List.mem_filter.mp (given.subset member)).1)
      · rw [left, erase_filter (by simpa using due)]

/-- The due entries in any order that respects the key are what some draining gives.
Witness: induction on them, each of which is the earliest when its turn comes.
-/
theorem Drains.of_sorted {key : α → κ} {bound : κ} {heap popped : List α}
    (given : popped.Perm (heap.filter (key · ≤ bound)))
    (sorted : popped.Pairwise (key · ≤ key ·))
    : Drains key bound heap popped (heap.filter (bound < key ·)) := by
  induction popped generalizing heap with
  | nil =>
      have late : ∀ other ∈ heap, bound < key other := by
        have none_ := List.filter_eq_nil_iff.mp given.nil_eq.symm
        simpa using none_
      have kept : heap.filter (bound < key ·) = heap :=
        List.filter_eq_self.mpr fun other member => by simpa using late other member
      rw [kept]
      obtain ⟨peeked, first⟩ := exists_peeks key heap
      cases peeked with
      | none =>
          obtain rfl : heap = [] := first
          exact .empty
      | some entry => exact .stop first (late entry first.1)
  | cons entry popped ih =>
      obtain ⟨before, sorted⟩ := List.pairwise_cons.mp sorted
      obtain ⟨member, due⟩ := List.mem_filter.mp (given.subset List.mem_cons_self)
      have first : Earliest key heap entry := by
        refine ⟨member, fun other inside => ?_⟩
        by_cases early : key other ≤ bound
        · have popped_ := given.mem_iff.mpr (List.mem_filter.mpr ⟨inside, by simpa using early⟩)
          rcases List.mem_cons.mp popped_ with rfl | later
          · exact le_rfl
          · exact before other later
        · exact (of_decide_eq_true due).trans (not_le.mp early).le
      have fewer := (given.trans (filter_perm_cons_erase member due)).cons_inv
      have more := ih fewer sorted
      rw [erase_filter (by simpa using due)] at more
      exact .pop first (of_decide_eq_true due) more

/-- Every heap can be drained. -/
theorem exists_drains (key : α → κ) (bound : κ) (heap : List α)
    : ∃ popped, Drains key bound heap popped (heap.filter (bound < key ·)) := by
  let le (left right : α) : Bool := key left ≤ key right
  have sorted : ((heap.filter (key · ≤ bound)).mergeSort le).Pairwise (le · ·) :=
    List.pairwise_mergeSort (by simpa [le] using fun _ _ _ => le_trans)
      (by simpa [le] using fun _ _ => le_total _ _) _
  exact ⟨_, .of_sorted (List.mergeSort_perm _ le) (by simpa [le] using sorted)⟩

end Lib
