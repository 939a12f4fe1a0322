import Mathlib.Data.List.Flatten
import Mathlib.Data.List.Forall2
import Mathlib.Data.List.Perm.Subperm

/-! Lists related element by element. -/

namespace Lib

variable {α : Type*} {related : α → α → Prop}

/-- Relations compose element by element, by induction on the first pair of lists. -/
theorem forall₂_trans (trans : ∀ {x y z}, related x y → related y z → related x z)
    {first second third : List α} (left : List.Forall₂ related first second)
    (right : List.Forall₂ related second third)
    : List.Forall₂ related first third := by
  induction left generalizing third with
  | nil => exact right
  | cons head _ ih =>
      cases right with
      | cons next rest => exact .cons (trans head next) (ih rest)

/-- Related elements put at one position, by induction on the pair of lists. -/
theorem forall₂_set_both {β : Type*} {related : α → β → Prop} {first : List α}
    {second : List β} (all : List.Forall₂ related first second) (n : Nat) {x : α} {y : β}
    (step : related x y)
    : List.Forall₂ related (first.set n x) (second.set n y) := by
  induction all generalizing n with
  | nil => exact .nil
  | cons head tail ih =>
      cases n with
      | zero => exact .cons step tail
      | succ n => exact .cons head (ih n)

/-- One element replaced by a related one. -/
theorem forall₂_set (refl : ∀ x, related x x) {list : List α} {n : Nat} {element next : α}
    (found : list[n]? = some element) (step : related element next)
    : List.Forall₂ related list (list.set n next) := by
  have same : List.Forall₂ related list list := List.forall₂_same.mpr fun x _ => refl x
  have both := forall₂_set_both same n step
  obtain ⟨within, rfl⟩ := List.getElem?_eq_some_iff.mp found
  rwa [List.set_getElem_self] at both

/-- The elements at one position are related, by induction on the pair of lists. -/
theorem forall₂_getElem? {β : Type*} {related : α → β → Prop} {first : List α}
    {second : List β} (all : List.Forall₂ related first second) {n : Nat} {element : β}
    (found : second[n]? = some element)
    : ∃ before, first[n]? = some before ∧ related before element := by
  induction all generalizing n with
  | nil => cases found
  | cons head _ ih =>
      cases n with
      | zero =>
          obtain rfl := Option.some.inj found
          exact ⟨_, rfl, head⟩
      | succ n => exact ih found

/-- What the relation keeps is the same list of values. -/
theorem forall₂_map_eq {β : Type*} {value : α → β}
    (keeps : ∀ {x y}, related x y → value y = value x) {first second : List α}
    (all : List.Forall₂ related first second)
    : second.map value = first.map value := by
  induction all with
  | nil => rfl
  | cons head _ ih => rw [List.map_cons, List.map_cons, keeps head, ih]

/-- A chain of two different relations, by induction on the first pair of lists. -/
theorem forall₂_chain {β γ : Type*} {first : α → β → Prop} {second : β → γ → Prop}
    {both : α → γ → Prop} (chain : ∀ x y z, first x y → second y z → both x z)
    {xs : List α} {ys : List β} {zs : List γ} (left : List.Forall₂ first xs ys)
    (right : List.Forall₂ second ys zs)
    : List.Forall₂ both xs zs := by
  induction left generalizing zs with
  | nil =>
      cases right
      exact .nil
  | cons head _ ih =>
      cases right with
      | cons next rest => exact .cons (chain _ _ _ head next) (ih rest)

/-- Every element of the second list is related to one of the first. -/
theorem forall₂_mem {β : Type*} {related : α → β → Prop} {first : List α} {second : List β}
    (all : List.Forall₂ related first second) {element : β} (member : element ∈ second)
    : ∃ before ∈ first, related before element := by
  obtain ⟨n, within, rfl⟩ := List.getElem_of_mem member
  obtain ⟨before, found, holds⟩ := forall₂_getElem? all (List.getElem?_eq_getElem within)
  exact ⟨before, List.mem_of_getElem? found, holds⟩

/-- Where the lists of one element grow, so does what all elements hold together. Witness:
induction on the list.
-/
theorem flatMap_set_perm {β : Type*} {parts : α → List β} {list : List α} {n : Nat}
    {element next : α} {more : List β} (found : list[n]? = some element)
    (grown : parts next = parts element ++ more)
    : ((list.set n next).flatMap parts).Perm (list.flatMap parts ++ more) := by
  induction list generalizing n with
  | nil => cases found
  | cons head rest ih =>
      cases n with
      | zero =>
          obtain rfl := Option.some.inj found
          rw [List.set_cons_zero, List.flatMap_cons, List.flatMap_cons, grown,
            List.append_assoc, List.append_assoc]
          exact List.perm_append_comm.append_left _
      | succ n =>
          rw [List.set_cons_succ, List.flatMap_cons, List.flatMap_cons, List.append_assoc]
          exact (ih found).append_left _

/-- What one element holds is among what all hold together. -/
theorem sublist_flatMap {β : Type*} (parts : α → List β) {list : List α} {element : α}
    (member : element ∈ list)
    : (parts element).Sublist (list.flatMap parts) := by
  have within := (List.singleton_sublist.mpr member).flatMap parts
  rwa [List.flatMap_singleton] at within

/-- Where each element holds less, so do all together, by induction on the list. -/
theorem subperm_flatMap {β : Type*} {first second : α → List β} {list : List α}
    (within : ∀ element ∈ list, (first element).Subperm (second element))
    : (list.flatMap first).Subperm (list.flatMap second) := by
  induction list with
  | nil => exact List.Subperm.refl _
  | cons head rest ih =>
      rw [List.flatMap_cons, List.flatMap_cons]
      exact (within head List.mem_cons_self).append
        (ih fun element member => within element (List.mem_cons_of_mem _ member))

end Lib
