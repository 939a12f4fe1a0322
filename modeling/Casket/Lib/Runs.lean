import Mathlib.Logic.Relation
import Mathlib.Tactic.TypeStar

/-! Runs of a partial machine whose steps are chosen by an environment.
A guard names what the environment promises; invariants are proved once per step.
-/

namespace Lib

variable {σ ι : Type*}

/-- The states a partial machine reaches from `start` by steps whose label the environment
was allowed to choose.
-/
inductive Reach (step : σ → ι → Option σ) (guard : σ → ι → Prop) (start : σ) : σ → Prop
  | start : Reach step guard start start
  | next {before label after} (earlier : Reach step guard start before)
    (allowed : guard before label) (taken : step before label = some after)
    : Reach step guard start after

namespace Reach

variable {step : σ → ι → Option σ} {guard : σ → ι → Prop} {start : σ}

/-- A property of the start that every allowed step keeps holds of every reached state.
Witness: induction on the run.
-/
theorem invariant (inv : σ → Prop) (initial : inv start)
    (kept
      : ∀ {before label after},
          inv before → guard before label → step before label = some after → inv after)
    {state : σ} (run : Reach step guard start state)
    : inv state := by
  induction run with
  | start => exact initial
  | next _ allowed taken ih => exact kept ih allowed taken

/-- A run under a stronger promise is a run under a weaker one, by induction. -/
theorem weaken {weaker : σ → ι → Prop}
    (implied : ∀ {before label}, guard before label → weaker before label)
    {state : σ} (run : Reach step guard start state)
    : Reach step weaker start state := by
  induction run with
  | start => exact .start
  | next _ allowed taken ih => exact ih.next (implied allowed) taken

/-- Runs compose, by induction on the second one. -/
theorem trans {middle state : σ} (first : Reach step guard start middle)
    (second : Reach step guard middle state)
    : Reach step guard start state := by
  induction second with
  | start => exact first
  | next _ allowed taken ih => exact ih.next allowed taken

end Reach

/-- Run a list of labels, stopping when one is refused or not allowed. -/
def exec (step : σ → ι → Option σ) (guard : σ → ι → Prop)
    [∀ state label, Decidable (guard state label)] : σ → List ι → Option σ
  | state, [] => some state
  | state, label :: rest =>
      if guard state label then (step state label).bind (exec step guard · rest) else none

/-- A successful execution is a run, by induction on its labels. -/
theorem Reach.of_exec {step : σ → ι → Option σ} {guard : σ → ι → Prop}
    [∀ state label, Decidable (guard state label)] {start state : σ} (labels : List ι)
    (done : exec step guard start labels = some state)
    : Reach step guard start state := by
  suffices ∀ middle, Reach step guard start middle →
      exec step guard middle labels = some state → Reach step guard start state from
    this start .start done
  clear done
  induction labels with
  | nil =>
      intro middle run done
      exact Option.some.inj done ▸ run
  | cons label rest ih =>
      intro middle run done
      simp only [exec] at done
      split at done
      · next allowed =>
          obtain ⟨after, taken, later⟩ := Option.bind_eq_some_iff.mp done
          exact ih after (run.next allowed taken) later
      · cases done

end Lib
