import Casket.Worker.ReaderRuns
import Casket.Worker.Requests
import Casket.Worker.Stops

/-! `CASKET_MAX_REQUESTS`: the limit is tested when a stream arrives, against the requests
that were sent, while the queue grows when a request is complete.
-/

namespace Casket

open Lib

namespace WorkerLoop

/-- The complete requests that wait for a python thread or are with one. -/
def load (self : WorkerLoop) : Nat :=
  self.worker.pythonThreads.queuedReqs.length + self.worker.pythonThreads.numPendingReqs

/-- The next result is a complete request, and its stream is deregistered. -/
def completes (self : WorkerLoop) : WorkerInput → Bool
  | .action (.ok ()) _ =>
      match self.phase.nextResult with
      | some (.ok (.serverReadDone _ _ _), _) => true
      | _ => false
  | _ => false

/-- A request that is complete finds room for itself. -/
def HasRoom (cfg : Config) (self : WorkerLoop) (input : WorkerInput) : Prop :=
  self.completes input = true → self.load < cfg.maxRequests

instance (cfg : Config) (self : WorkerLoop) (input : WorkerInput)
    : Decidable (self.HasRoom cfg input) :=
  inferInstanceAs (Decidable (_ → _))

variable {cfg : Config} {crates : Crates} {bincode : Bincode} {self after : WorkerLoop}
  {input : WorkerInput}

theorem load_same (same : after.worker.pythonThreads = self.worker.pythonThreads)
    : after.load = self.load := by
  rw [load, same]
  rfl

/-- A complete request is one more in the queue. -/
theorem step_completes (taken : self.step cfg crates bincode input = some after)
    (completes : self.completes input = true)
    : after.load = self.load + 1 := by
  unfold WorkerLoop.completes at completes
  split at completes
  case h_2 => cases completes
  case h_1 now =>
    split at completes
    case h_2 => cases completes
    case h_1 tk httpReq tcpStream phase popped =>
      rw [step_action, popped] at taken
      obtain rfl := Option.some.inj taken
      simp only [load, handleResult, handleAction, called, insertPending, note, withPoll,
        PythonThreads.queueHttpReq, List.length_append, List.length_singleton]
      omega

/-- An event adds nothing: requests that are sent leave the queue. -/
theorem Delivers.load {tk : Token} {ev : Event}
    (delivers : self.Delivers cfg bincode tk ev after)
    : after.load ≤ self.load := by
  cases delivers with
  | queuedRequests sent =>
      obtain ⟨_, _, _, count, queued, _⟩ := PythonThreads.sendQueuedRequests_spec sent
      simp only [WorkerLoop.load, note, count, queued, List.length_nil]
      omega
  | pollPythonResponses took =>
      obtain ⟨_, _, _, _, count, queued, _⟩ := PythonThreads.takeResponses_spec took
      simp only [WorkerLoop.load, note, pushResults, count, queued]
      omega
  | _ => exact Nat.le_refl _

/-- Only a complete request adds to the load. -/
theorem Takes.load (takes : self.Takes cfg bincode input after)
    (completes : self.completes input = false)
    : after.load ≤ self.load := by
  cases takes with
  | event _ delivers => exact delivers.load
  | timeout _ expires => cases expires <;> exact Nat.le_refl _
  | result popped settles =>
      cases settles with
      | queued =>
          rw [WorkerLoop.completes, popped] at completes
          cases completes
      | _ => exact Nat.le_refl _
  | top _ goes =>
      rw [loopTop, goes]
      exact Nat.le_refl _
  | _ => exact Nat.le_refl _

/-- So a step that handles none adds nothing, whether or not the loop ends. -/
theorem step_load (taken : self.step cfg crates bincode input = some after)
    (completes : self.completes input = false)
    : after.load ≤ self.load := by
  cases goes : after.phase.running with
  | true => exact (step_takes taken goes).load completes
  | false =>
      cases runs : self.phase.running with
      | true => exact (load_same (step_stops taken runs goes).2.threads).le
      | false =>
          have ended := step_ended taken runs
          exact (load_same (congrArg Worker.pythonThreads ended.2.1)).le

/-- A step within the limit stays within it exactly if it has room for what it completes. -/
theorem step_within (taken : self.step cfg crates bincode input = some after)
    (within : self.load ≤ cfg.maxRequests)
    : after.load ≤ cfg.maxRequests ↔ self.HasRoom cfg input := by
  cases completes : self.completes input with
  | true =>
      rw [step_completes taken completes]
      exact ⟨fun room _ => room, fun room => room completes⟩
  | false =>
      constructor
      · intro _ is
        rw [completes] at is
        cases is
      · intro _
        exact (step_load taken completes).trans within

/-- The limit holds in every run in which each complete request finds room, and the first
request without room breaks it. A stream that arrives while as many requests are pending is
refused. Witness: only complete requests add to the load, one each.
-/
theorem limit_holds (cfg : Config) (crates : Crates) (bincode : Bincode)
    : (∀ state,
        Reach (step cfg crates bincode) (HasRoom cfg) (.new cfg) state →
        state.load ≤ cfg.maxRequests)
      ∧ (∀ before input after,
          before.load ≤ cfg.maxRequests → step cfg crates bincode before input = some after →
          (after.load ≤ cfg.maxRequests ↔ before.HasRoom cfg input))
      ∧ ∀ before io after tk fd events tmos results,
          before.phase = .events ((tk, .newStreamFd fd) :: events) tmos results →
          cfg.maxRequests ≤ before.worker.pythonThreads.numPendingReqs →
          step cfg crates bincode before (.event io) = some after →
          after.phase = .events events tmos (results ++ [.ok (new503ServiceBusy tk ⟨fd⟩)]) := by
  refine ⟨?_, fun _ _ _ within taken => step_within taken within, ?_⟩
  · intro state run
    refine run.invariant (fun state => state.load ≤ cfg.maxRequests) (Nat.zero_le _) ?_
    intro before input after within allowed taken
    exact (step_within taken within).mpr allowed
  · intro before io after tk fd events tmos results stands full taken
    simp only [step, stands, handleEvent, newStreamFd, full, if_true] at taken
    obtain rfl := Option.some.inj taken
    rfl

/-- A limit of one request. -/
def oneRequest : Config := { Config.default "casket" with maxRequests := 1 }

/-- Streams arrive, and the heads of their requests are read in one turn. -/
def crowding (requests : List Request) (fds : List RawFd) : List WorkerInput :=
  let read : WorkerEventIo := { WorkerEventIo.quiet with read := .ok (headOf "0") }
  WorkerInput.accepting .fixint 0 requests fds
  ++ WorkerInput.turn 0 [] (requests.map fun request => ⟨request.token, true, false⟩)
      (requests.map fun _ => read) requests.length 0 0

/-- One request fits. -/
theorem limit_holds_one : ∃ state : WorkerLoop, state.load = 1 ∧ state.load ≤ 1 := by
  have runs
      : (exec (step oneRequest (.onHead "0") .fixint) (HasRoom oneRequest)
          (.new oneRequest) (crowding [⟨5, 7⟩] [9])).map load
        = some 1 := by
    decide +kernel
  obtain ⟨state, done, out⟩ := Option.map_eq_some_iff.mp runs
  have holds := limit_holds oneRequest (.onHead "0") .fixint
  exact ⟨state, out, holds.1 state (Reach.of_exec _ done)⟩

/-- Two streams that arrive together are both read, and two requests wait. -/
theorem limit_exceeded
    : ∃ state : WorkerLoop,
        Reach (step oneRequest (.onHead "0") .fixint) (fun _ _ => True) (.new oneRequest) state
        ∧ oneRequest.maxRequests < state.load := by
  have runs
      : (exec (step oneRequest (.onHead "0") .fixint) (fun _ _ => True) (.new oneRequest)
          (crowding [⟨5, 7⟩, ⟨6, 8⟩] [9, 10])).map load
        = some 2 := by
    decide +kernel
  obtain ⟨state, done, out⟩ := Option.map_eq_some_iff.mp runs
  refine ⟨state, Reach.of_exec _ done, ?_⟩
  rw [out]
  decide

end WorkerLoop
end Casket
