import Casket.Lib.Maps
import Mathlib.Algebra.Order.Group.Multiset
import Mathlib.Tactic.Abel

/-! What finite maps hold and what the steps of a trace move, as multisets: every item is
accounted for wherever it is, and orders do not matter.
-/

namespace Lib

variable {α β γ ε : Type*}

-----------------------------------------------------------------------------------------
-- Maps
-----------------------------------------------------------------------------------------

/-- The values of a map, as far as the view shows them, with their keys. -/
def contents (view : β → γ) (map : AList fun _ : α => β) : Multiset (α × γ) :=
  (map.entries.map fun entry => (entry.1, view entry.2) : List (α × γ))

@[simp]
theorem contents_empty (view : β → γ)
    : contents view (∅ : AList fun _ : α => β) = 0 := rfl

@[simp]
theorem map_fst_contents (view : β → γ) (map : AList fun _ : α => β)
    : (contents view map).map Prod.fst = (map.keys : Multiset α) := by
  rw [contents, Multiset.map_coe, List.map_map]
  rfl

variable [DecidableEq α] {view : β → γ} {map : AList fun _ : α => β} {key : α} {value : β}

/-- The inserted value comes to the rest of the map. -/
theorem contents_insert (view : β → γ) (map : AList fun _ : α => β) (key : α) (value : β)
    : contents view (map.insert key value)
      = {(key, view value)} + contents view (map.erase key) := by
  rw [contents, AList.entries_insert, List.map_cons, ← Multiset.cons_coe,
    Multiset.singleton_add]
  rfl

/-- A value that was found and the rest of the map are all of it. -/
theorem contents_of_lookup (view : β → γ) (found : map.lookup key = some value)
    : contents view map = {(key, view value)} + contents view (map.erase key) := by
  obtain ⟨other, front, back, -, split, erased⟩ :=
    List.exists_of_kerase (mem_keys_of_lookup found)
  have same : other = value := by
    have looked : map.entries.dlookup key = some value := found
    have there : ⟨key, other⟩ ∈ map.entries := split ▸ List.mem_append_right _ List.mem_cons_self
    rw [List.mem_dlookup map.nodupKeys there] at looked
    exact Option.some.inj looked
  have rest : (map.erase key).entries = front ++ back := erased
  rw [contents, contents, rest, split, Multiset.singleton_add, Multiset.cons_coe, ← same]
  refine Multiset.coe_eq_coe.mpr ?_
  rw [List.map_append, List.map_append, List.map_cons]
  exact List.perm_middle

/-- Erasing an absent key changes nothing. -/
theorem erase_of_lookup_none (absent : map.lookup key = none) : map.erase key = map :=
  AList.ext (List.kerase_of_notMem_keys (not_mem_keys_of_lookup absent))

/-- The value that an insertion replaces goes, the inserted one comes. -/
theorem contents_insert_add (view : β → γ) (map : AList fun _ : α => β) (key : α) (value : β)
    : contents view (map.insert key value)
        + (map.lookup key).elim 0 (fun replaced => {(key, view replaced)})
      = {(key, view value)} + contents view map := by
  rw [contents_insert]
  cases looked : map.lookup key with
  | none => rw [erase_of_lookup_none looked, Option.elim_none, add_zero]
  | some replaced =>
      rw [contents_of_lookup view looked, Option.elim_some]
      abel

/-- An insertion adds at most its key. -/
theorem keys_insert_le (map : AList fun _ : α => β) (key : α) (value : β)
    : ((map.insert key value).keys : Multiset α) ≤ {key} + map.keys := by
  rw [AList.keys_insert, ← Multiset.cons_coe, Multiset.singleton_add]
  exact Multiset.cons_le_cons key (Multiset.coe_le.mpr (List.erase_sublist.subperm))

/-- A key that was found and the others are all keys. -/
theorem keys_of_lookup (found : map.lookup key = some value)
    : (map.keys : Multiset α) = {key} + (map.erase key).keys := by
  have there : key ∈ map.keys := mem_keys_of_lookup found
  rw [AList.keys_erase, ← Multiset.coe_erase, Multiset.singleton_add]
  exact (Multiset.cons_erase (Multiset.mem_coe.mpr there)).symm

-----------------------------------------------------------------------------------------
-- Traces
-----------------------------------------------------------------------------------------

/-- What the effects of a trace add up to. -/
def total (share : ε → Multiset α) (trace : List ε) : Multiset α := (trace.map share).sum

omit [DecidableEq α] in
@[simp]
theorem total_nil (share : ε → Multiset α) : total share [] = 0 := rfl

omit [DecidableEq α] in
@[simp]
theorem total_cons (share : ε → Multiset α) (effect : ε) (trace : List ε)
    : total share (effect :: trace) = share effect + total share trace := by
  rw [total, List.map_cons, List.sum_cons, total]

omit [DecidableEq α] in
@[simp]
theorem total_append (share : ε → Multiset α) (trace more : List ε)
    : total share (trace ++ more) = total share trace + total share more := by
  rw [total, List.map_append, List.sum_append, total, total]

omit [DecidableEq α] in
/-- Effects without a share add up to nothing, by induction on the trace. -/
theorem total_eq_zero {share : ε → Multiset α} {trace : List ε}
    (none : ∀ effect ∈ trace, share effect = 0)
    : total share trace = 0 := by
  induction trace with
  | nil => rfl
  | cons effect rest ih =>
      rw [total_cons, none effect List.mem_cons_self, zero_add]
      exact ih fun other member => none other (List.mem_cons_of_mem _ member)

omit [DecidableEq α] in
/-- So do effects of one kind without a share. -/
theorem total_map_none {δ : Type*} (share : ε → Multiset α) (effect : δ → ε)
    (none : ∀ x, share (effect x) = 0) (list : List δ)
    : total share (list.map effect) = 0 :=
  total_eq_zero (List.forall_mem_map.mpr fun x _ => none x)

omit [DecidableEq α] in
/-- Effects with one share each add up to the list of them, by induction on the list. -/
theorem total_map {δ : Type*} (share : ε → Multiset α) (effect : δ → ε) (item : δ → α)
    (one : ∀ x, share (effect x) = {item x}) (list : List δ)
    : total share (list.map effect) = (list.map item : List α) := by
  induction list with
  | nil => rfl
  | cons x rest ih =>
      rw [List.map_cons, total_cons, one, ih, Multiset.singleton_add, Multiset.cons_coe]
      rfl

omit [DecidableEq α] in
/-- The share of one effect is part of the sum. -/
theorem mem_total {share : ε → Multiset α} {effect : ε} {trace : List ε} {item : α}
    (here : effect ∈ trace) (has : item ∈ share effect)
    : item ∈ total share trace := by
  obtain ⟨front, back, rfl⟩ := List.append_of_mem here
  rw [total_append, total_cons]
  exact Multiset.mem_add.mpr (.inr (Multiset.mem_add.mpr (.inl has)))

end Lib
