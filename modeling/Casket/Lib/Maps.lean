import Mathlib.Data.List.AList

/-! Membership in the key lists of finite maps. -/

namespace Lib

variable {α : Type*} {β : α → Type*} [DecidableEq α]

/-- A key that was found is among the keys. -/
theorem mem_keys_of_lookup {map : AList β} {key : α} {value : β key}
    (found : map.lookup key = some value)
    : key ∈ map.keys := by
  rw [← AList.mem_keys, ← AList.lookup_isSome, found]
  rfl

/-- A key among the keys is found. -/
theorem exists_lookup {map : AList β} {key : α} (member : key ∈ map.keys)
    : ∃ value, map.lookup key = some value := by
  rw [← AList.mem_keys, ← AList.lookup_isSome] at member
  exact Option.isSome_iff_exists.mp member

/-- A key that was not found is not among the keys. -/
theorem not_mem_keys_of_lookup {map : AList β} {key : α} (absent : map.lookup key = none)
    : key ∉ map.keys := by
  rw [← AList.mem_keys, ← AList.lookup_eq_none]
  exact absent

/-- The keys after an erasure are the others. -/
theorem mem_keys_erase {map : AList β} {key other : α}
    : other ∈ (map.erase key).keys ↔ other ≠ key ∧ other ∈ map.keys := by
  rw [AList.keys_erase]
  exact map.nodupKeys.mem_erase_iff

/-- The keys after an insertion are the inserted one and those before. -/
theorem mem_keys_insert {map : AList β} {key other : α} {value : β key}
    : other ∈ (map.insert key value).keys ↔ other = key ∨ other ∈ map.keys := by
  rw [← AList.mem_keys, ← AList.mem_keys]
  exact AList.mem_insert map

/-- Inserting at a new key adds one key. -/
theorem length_keys_insert {map : AList β} {key : α} {value : β key}
    (fresh : key ∉ map.keys)
    : (map.insert key value).keys.length = map.keys.length + 1 := by
  rw [AList.keys_insert, List.erase_of_not_mem fresh, List.length_cons]

/-- Erasing a key removes one key. -/
theorem length_keys_erase {map : AList β} {key : α} (there : key ∈ map.keys)
    : (map.erase key).keys.length + 1 = map.keys.length := by
  rw [AList.keys_erase, List.length_erase_of_mem there]
  have positive := List.length_pos_of_mem there
  omega

/-- What is found under one key is found there after the erasure of another. -/
theorem lookup_erase_cases {map : AList β} (key : α) {other : α} {value : β other}
    (found : map.lookup other = some value)
    : other = key ∨ (map.erase key).lookup other = some value := by
  by_cases same : other = key
  · exact .inl same
  · exact .inr ((AList.lookup_erase_ne same).trans found)

/-- What is found after an erasure was there before. -/
theorem lookup_of_erase {map : AList β} {key other : α} {value : β other}
    (found : (map.erase key).lookup other = some value)
    : map.lookup other = some value := by
  by_cases same : other = key
  · subst same
    rw [AList.lookup_erase] at found
    cases found
  · exact (AList.lookup_erase_ne same).symm.trans found

/-- What is found under one key is found there after an insertion at a new one. -/
theorem lookup_insert_fresh {map : AList β} {key other : α} {value : β other}
    {inserted : β key} (fresh : key ∉ map.keys) (found : map.lookup other = some value)
    : (map.insert key inserted).lookup other = some value := by
  have different : other ≠ key := by
    rintro rfl
    exact fresh (mem_keys_of_lookup found)
  exact (AList.lookup_insert_ne different).trans found

/-- What is found after an insertion was inserted or was there under another key. -/
theorem lookup_insert_cases {γ : Type*} {map : AList fun _ : α => γ} {key other : α}
    {value inserted : γ} (found : (map.insert key inserted).lookup other = some value)
    : other = key ∧ value = inserted ∨ other ≠ key ∧ map.lookup other = some value := by
  by_cases same : other = key
  · subst same
    rw [AList.lookup_insert] at found
    exact .inl ⟨rfl, (Option.some.inj found).symm⟩
  · rw [AList.lookup_insert_ne same] at found
    exact .inr ⟨same, found⟩

-----------------------------------------------------------------------------------------
-- Entries drawn from a map
-----------------------------------------------------------------------------------------

/-- Entries taken out of a map, each once and each for an allowed key. -/
structure Drawn {γ : Type*} (before after : AList fun _ : α => γ) (allowed : α → Prop)
    (drawn : List (α × γ)) : Prop where
  found : ∀ {item}, item ∈ drawn → before.lookup item.1 = some item.2 ∧ allowed item.1
  gone : ∀ {item}, item ∈ drawn → after.lookup item.1 = none
  kept : ∀ {key value}, after.lookup key = some value → before.lookup key = some value
  left
    : ∀ {key value}, before.lookup key = some value →
        after.lookup key = some value ∨ (key, value) ∈ drawn
  once : (drawn.map Prod.fst).Nodup

namespace Drawn

variable {γ : Type*} {first second third : AList fun _ : α => γ} {allowed wider : α → Prop}
  {drawn more : List (α × γ)}

theorem nil (map : AList fun _ : α => γ) (allowed : α → Prop)
    : Drawn map map allowed [] where
  found := nofun
  gone := nofun
  kept := id
  left := .inl
  once := .nil

/-- Erasing an entry draws it. -/
theorem erase {key : α} {value : γ} (found : first.lookup key = some value)
    (may : allowed key)
    : Drawn first (first.erase key) allowed [(key, value)] where
  found := by
    intro item member
    obtain rfl := List.mem_singleton.mp member
    exact ⟨found, may⟩
  gone := by
    intro item member
    obtain rfl := List.mem_singleton.mp member
    exact AList.lookup_erase _ _
  kept := by
    intro other kept looked
    by_cases same : other = key
    · subst same
      rw [AList.lookup_erase] at looked
      cases looked
    · rwa [AList.lookup_erase_ne same] at looked
  left := by
    intro other kept looked
    rcases lookup_erase_cases key looked with rfl | still
    · obtain rfl := Option.some.inj (looked.symm.trans found)
      exact .inr (List.mem_singleton_self _)
    · exact .inl still
  once := List.nodup_singleton _

/-- Drawing goes on: what was drawn is gone, so it is not drawn again. -/
theorem append (left : Drawn first second allowed drawn)
    (right : Drawn second third allowed more)
    : Drawn first third allowed (drawn ++ more) where
  found := by
    intro item member
    rcases List.mem_append.mp member with old | new
    · exact left.found old
    · obtain ⟨looked, may⟩ := right.found new
      exact ⟨left.kept looked, may⟩
  gone := by
    intro item member
    rcases List.mem_append.mp member with old | new
    · cases looked : third.lookup item.1 with
      | none => rfl
      | some value =>
          have there := right.kept looked
          rw [left.gone old] at there
          cases there
    · exact right.gone new
  kept looked := left.kept (right.kept looked)
  left := by
    intro key value looked
    rcases left.left looked with still | old
    · exact (right.left still).imp_right (List.mem_append_right _)
    · exact .inr (List.mem_append_left _ old)
  once := by
    rw [List.map_append]
    refine List.nodup_append.mpr ⟨left.once, right.once, ?_⟩
    intro key old other new same
    obtain ⟨item, member, rfl⟩ := List.mem_map.mp old
    obtain ⟨next, there, rfl⟩ := List.mem_map.mp new
    have looked := (right.found there).1
    rw [← same, left.gone member] at looked
    cases looked

theorem weaken (drawn' : Drawn first second allowed drawn)
    (implied : ∀ {key}, allowed key → wider key)
    : Drawn first second wider drawn where
  found member := ⟨(drawn'.found member).1, implied (drawn'.found member).2⟩
  gone := drawn'.gone
  kept := drawn'.kept
  left := drawn'.left
  once := drawn'.once

/-- A key that is not allowed keeps its entry. -/
theorem keeps (drawn' : Drawn first second allowed drawn) {key : α} (member : key ∈ first.keys)
    (not : ¬ allowed key)
    : key ∈ second.keys := by
  obtain ⟨value, looked⟩ := exists_lookup member
  rcases drawn'.left looked with still | taken
  · exact mem_keys_of_lookup still
  · exact absurd (drawn'.found taken).2 not

end Drawn
end Lib
