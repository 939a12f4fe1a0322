import Mathlib.Tactic.TypeStar

/-! Edge-triggered readiness. An event for a source is produced only when new readiness
arrives, or on registration while the source is ready; its delivery uses it up.
-/

namespace Lib

/-- What a poller knows of a source: whether its readiness is of interest, and whether an
event is still to be delivered.
-/
structure Edge where
  interested : Bool
  pending : Bool
  deriving DecidableEq, Repr

namespace Edge

/-- Not registered. -/
def idle : Edge := ⟨false, false⟩

/-- New readiness arrives. -/
def arrive (edge : Edge) : Edge := { edge with pending := edge.pending || edge.interested }

/-- Registration, or another one, of a source that may be ready. -/
def register (edge : Edge) (ready : Bool) : Edge where
  interested := true
  pending := edge.pending || ready

/-- The event is delivered, if there is one. -/
def deliver (edge : Edge) : Option Edge :=
  if edge.pending then some { edge with pending := false } else none

/-- Readiness of interest has an event to be delivered. -/
def Awake (edge : Edge) (ready : Prop) : Prop :=
  edge.interested = true → ready → edge.pending = true

variable {edge after : Edge} {ready less : Prop}

/-- A delivery uses up an event that was there. -/
theorem deliver_eq_some (delivered : edge.deliver = some after)
    : edge.pending = true ∧ after = { edge with pending := false } := by
  unfold deliver at delivered
  split at delivered
  · next pending => exact ⟨pending, (Option.some.inj delivered).symm⟩
  · cases delivered

/-- Less readiness needs no further event. -/
theorem Awake.mono (awake : edge.Awake ready) (fewer : less → ready) : edge.Awake less :=
  fun interested isReady => awake interested (fewer isReady)

/-- After an arrival any readiness has its event. -/
theorem awake_arrive (edge : Edge) (ready : Prop) : edge.arrive.Awake ready := by
  intro interested _
  have interested : edge.interested = true := interested
  simp [arrive, interested]

/-- A registration notices what is ready. -/
theorem awake_register (edge : Edge) {isReady : Bool} (noticed : ready → isReady = true)
    : (edge.register isReady).Awake ready := by
  intro _ holds
  simp [register, noticed holds]

/-- What is not registered has no interest. -/
theorem awake_idle (ready : Prop) : idle.Awake ready :=
  fun interested => absurd interested Bool.false_ne_true

/-- After a delivery the readiness that is left needs no event, when none is left. -/
theorem awake_unready (edge : Edge) (spent : ¬ready) : edge.Awake ready :=
  fun _ isReady => absurd isReady spent

end Edge
end Lib
