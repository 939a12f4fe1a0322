import Casket.Worker.Accounting
import Casket.Worker.ReaderRuns
import Casket.Worker.Stops

/-! The worker's exit after the signal. The test at the top of the loop looks at some of the
places a request can be in; the accounts tell which of the others are empty then.
-/

namespace Casket

open Lib WorkerEffect

namespace WorkerLoop

/-- Nothing that was received is lost: every token was answered and its answer handed to the
socket, and nothing waits anywhere.
-/
structure Lossless (bincode : Bincode) (state : WorkerLoop) : Prop where
  answered
    : ∀ tk ∈ (total came state.trace).map Prod.fst, tk ∈ total told state.trace
  written : accepted state.trace = frames bincode (responses state.trace)
  reading : state.worker.serverReadingStreams.keys = []
  pending : state.worker.serverPendingStreams.keys = []
  writing : state.worker.serverWritingStreams.keys = []
  casket : state.worker.serverCasketResponses.keys = []
  streamFds : state.worker.msgBuf.streamFds = []
  streamMsgs : state.worker.msgBuf.streamMsgs = []
  queued : state.worker.pythonThreads.queuedReqs = []
  executing : state.worker.pythonThreads.numPendingReqs = 0
  writeBuffer : state.worker.msgBuf.writeBuffer = []

/-- The places the test does not look at are empty: streams being read or refused, and
descriptors and messages that are not paired yet.
-/
structure Overlooked (worker : Worker) : Prop where
  reading : worker.serverReadingStreams.keys = []
  casket : worker.serverCasketResponses.keys = []
  streamFds : worker.msgBuf.streamFds = []
  streamMsgs : worker.msgBuf.streamMsgs = []

variable {cfg : Config} {crates : Crates} {bincode : Bincode} {state : WorkerLoop}

/-- What the test at the top of the loop looks at. -/
theorem finished_spec (done : state.finished = true)
    : state.worker.msgBuf.writeBuffer = []
      ∧ state.worker.pythonThreads.numPendingReqs = 0
      ∧ state.worker.pythonThreads.queuedReqs = []
      ∧ state.worker.serverWritingStreams.keys = [] := by
  simp only [finished, WorkerMsgBuffer.hasDataToSend, PythonThreads.hasQueuedReqs,
    Bool.and_eq_true, Bool.not_not, beq_iff_eq, List.isEmpty_iff] at done
  exact ⟨done.1.1.1.2, done.1.1.2, done.1.2, done.2⟩

/-- No stream waits for a response when no request is queued or with the threads. -/
theorem Accounts.unawaited (accounts : state.Accounts) (stands : state.phase = .top)
    (executing : state.worker.pythonThreads.numPendingReqs = 0)
    (queued : state.worker.pythonThreads.queuedReqs = [])
    : state.worker.serverPendingStreams.keys = [] := by
  have none : state.ledger.outstanding = 0 := by
    refine Multiset.card_eq_zero.mp ?_
    rw [← accounts.balanced.counter]
    exact executing
  have settled := accounts.balanced.settled (by rw [ledger, queued]; rfl) none
    (by rw [ledger, stands]; rfl)
  exact List.toFinset_eq_empty_iff _ |>.mp settled

/-- Every token has been answered once no stream is left. -/
theorem Conserves.all_told (conserves : state.Conserves bincode)
    (none : state.holdings = 0)
    : ∀ tk ∈ (total came state.trace).map Prod.fst,
        tk ∈ total WorkerEffect.told state.trace := by
  intro tk member
  refine (conserves.told tk member).resolve_right fun known => ?_
  have there := conserves.known tk known
  rw [none] at there
  exact Multiset.notMem_zero tk there

/-- A map without keys holds nothing. -/
theorem contents_nil {α γ : Type} (view : α → γ) {map : TokenMap α} (none : map.keys = [])
    : contents view map = 0 := by
  have entries : map.entries = [] := List.map_eq_nil_iff.mp none
  rw [contents, entries]
  rfl

/-- A loop that returns after the signal has lost nothing exactly if the places its test does
not look at were empty as well. Witness: the accounts empty the map of pending streams, and
a token that is not answered has a stream somewhere.
-/
theorem exit_loses_nothing (cfg : Config) (crates : Crates) (bincode : Bincode)
    : ∀ state,
        Reach (step cfg crates bincode) (fun _ _ => True) (.new cfg) state →
        state.phase = .returned (.ok ()) →
        (state.Lossless bincode ↔ Overlooked state.worker) := by
  intro state run exited
  obtain ⟨before, input, ended⟩ := stopped_reach run (exited ▸ rfl)
  obtain ⟨worker, trace⟩ := ended.finished exited
  have stops := ended.stops
  rw [exited] at stops
  cases stops with
  | event _ breaks => cases breaks
  | finished stands done =>
      constructor
      · intro lossless
        exact ⟨lossless.reading, lossless.casket, lossless.streamFds, lossless.streamMsgs⟩
      · rw [worker]
        intro overlooked
        obtain ⟨writeBuffer, executing, queued, writing⟩ := finished_spec done
        have pending := (accounts_reach ended.run ended.runs).unawaited stands executing queued
        have conserves := (conserved_reach ended.run ended.runs).2
        have none : before.holdings = 0 := by
          rw [holdings, stands, mapped, contents_nil _ overlooked.reading,
            contents_nil _ pending, contents_nil _ writing, contents_nil _ overlooked.casket]
          rfl
        have written := conserves.frames
        rw [writeBuffer, List.append_nil] at written
        constructor
        · rw [trace]
          exact conserves.all_told none
        · rw [trace]
          exact written
        all_goals rw [worker]
        · exact overlooked.reading
        · exact pending
        · exact writing
        · exact overlooked.casket
        · exact overlooked.streamFds
        · exact overlooked.streamMsgs
        · exact queued
        · exact executing
        · exact writeBuffer

/-- The signal comes during one poll, and the loop returns at its next top. -/
def interrupting : List WorkerInput :=
  [.top, .tick 0 [] (.error ⟨true, "interrupted system call"⟩), .event .quiet, .advance,
    .advance, .advance, .advance, .reregister (.ok ()), .top]

/-- A stream was answered and the answer written before the signal. -/
theorem exit_loses_nothing_answered
    : ∃ state : WorkerLoop, total told state.trace = {5} ∧ state.Lossless .fixint := by
  have runs
      : (exec (step (.default "casket") (.onHead "0") .fixint) (fun _ _ => True)
          (.new (.default "casket"))
          (WorkerInput.accepting .fixint 0 [⟨5, 7⟩] [9]
            ++ WorkerInput.turn 0 [] [⟨5, true, false⟩] [.quiet] 1 0 0
            ++ WorkerInput.turn 0 [] [⟨0, false, true⟩]
                [{ WorkerEventIo.quiet with write := .ok 18 }] 0 0 0
            ++ interrupting)).map
          (fun state =>
            (total told state.trace, state.phase.returnsOk,
              state.worker.serverReadingStreams.keys ++ state.worker.serverCasketResponses.keys,
              state.worker.msgBuf.streamFds.length + state.worker.msgBuf.streamMsgs.length))
        = some ({5}, true, [], 0) := by
    decide +kernel
  obtain ⟨state, done, out⟩ := Option.map_eq_some_iff.mp runs
  obtain ⟨answered, rest⟩ := Prod.mk.inj out
  obtain ⟨exited, rest⟩ := Prod.mk.inj rest
  obtain ⟨maps, waiting⟩ := Prod.mk.inj rest
  obtain ⟨reading, casket⟩ := List.append_eq_nil_iff.mp maps
  have lossless := exit_loses_nothing (.default "casket") (.onHead "0") .fixint state
    (Reach.of_exec _ done) (WorkerPhase.eq_returned exited)
  refine ⟨state, answered, lossless.mpr ⟨reading, casket, ?_, ?_⟩⟩
  · exact List.length_eq_zero_iff.mp (Nat.eq_zero_of_add_eq_zero_right waiting)
  · exact List.length_eq_zero_iff.mp (Nat.eq_zero_of_add_eq_zero_left waiting)

/-- A request was not complete in time, and the signal comes before its 408 is written: the
loop returns without writing it and without an answer.
-/
theorem exit_loses_refusal
    : ∃ state : WorkerLoop,
        Reach (step (.default "casket") (.onHead "0") .fixint) (fun _ _ => True)
          (.new (.default "casket")) state
        ∧ state.phase = .returned (.ok ())
        ∧ state.worker.serverCasketResponses.keys = [5]
        ∧ total told state.trace = 0
        ∧ ¬ state.Lossless .fixint := by
  have runs
      : (exec (step (.default "casket") (.onHead "0") .fixint) (fun _ _ => True)
          (.new (.default "casket"))
          (WorkerInput.accepting .fixint 0 [⟨5, 7⟩] [9]
            ++ WorkerInput.turn 0 [] [⟨5, true, false⟩]
                [{ WorkerEventIo.quiet with read := .ok ((headOf "0").take 10) }] 1 0 0
            ++ WorkerInput.turn 30000000000 [⟨5, 30000000000, .requestReadTimeout⟩] []
                [.quiet] 0 1 1
            ++ interrupting)).map
          (fun state =>
            (state.phase.returnsOk, state.worker.serverCasketResponses.keys,
              total told state.trace))
        = some (true, [5], 0) := by
    decide +kernel
  obtain ⟨state, done, out⟩ := Option.map_eq_some_iff.mp runs
  obtain ⟨exited, rest⟩ := Prod.mk.inj out
  obtain ⟨casket, told⟩ := Prod.mk.inj rest
  refine ⟨state, Reach.of_exec _ done, WorkerPhase.eq_returned exited, casket, told, ?_⟩
  intro lossless
  rw [lossless.casket] at casket
  cases casket

end WorkerLoop
end Casket
