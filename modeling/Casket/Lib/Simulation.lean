import Casket.Lib.Runs

/-! Simulation between two partial machines: where every step of one is a run of the other,
every run of one is explained by a run of the other.
-/

namespace Lib

variable {σ ι τ κ : Type*}

namespace Reach

variable {step : σ → ι → Option σ} {guard : σ → ι → Prop} {start : σ}
  {abstract : τ → κ → Option τ} {promise : τ → κ → Prop} {first : τ}

/-- A run that is explained step by step ends where a run of the other machine ends. The
explanation of a step may use that both states are reached. Witness: induction on the run.
-/
theorem simulates (related : σ → τ → Prop) (initial : related start first)
    (explained
      : ∀ {before label after seen},
          Reach step guard start before → Reach abstract promise first seen →
          related before seen → guard before label → step before label = some after →
          ∃ next, Reach abstract promise seen next ∧ related after next)
    {state : σ} (run : Reach step guard start state)
    : ∃ seen, Reach abstract promise first seen ∧ related state seen := by
  induction run with
  | start => exact ⟨first, .start, initial⟩
  | next earlier allowed taken ih =>
      obtain ⟨seen, before, holds⟩ := ih
      obtain ⟨next, more, still⟩ := explained earlier before holds allowed taken
      exact ⟨next, before.trans more, still⟩

/-- An invariant whose steps may use that the state before them is reached. Witness: induction
on the run.
-/
theorem along (inv : σ → Prop) (initial : inv start)
    (kept
      : ∀ {before label after},
          Reach step guard start before → inv before → guard before label →
          step before label = some after → inv after)
    {state : σ} (run : Reach step guard start state)
    : inv state := by
  induction run with
  | start => exact initial
  | next earlier allowed taken ih => exact kept earlier ih allowed taken

/-- What no allowed step changes is as it was at the start. -/
theorem unchanged {α : Type*} (value : σ → α)
    (kept
      : ∀ {before label after},
          guard before label → step before label = some after →
          value after = value before)
    {state : σ} (run : Reach step guard start state)
    : value state = value start :=
  run.invariant (fun state => value state = value start) rfl
    fun earlier allowed taken => (kept allowed taken).trans earlier

/-- A condition that cannot be regained held in every state a run came through, so it may be
read off the last one. Witness: induction on the run.
-/
theorem earlier (holds : σ → Prop)
    (lost : ∀ {before label after}, step before label = some after → holds after → holds before)
    {state : σ} (run : Reach step guard start state) (last : holds state)
    : holds start := by
  induction run with
  | start => exact last
  | next _ _ taken ih => exact ih (lost taken last)

end Reach
end Lib
