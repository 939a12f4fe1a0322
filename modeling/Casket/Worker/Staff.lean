import Casket.Worker.Custody
import Casket.Worker.Stops

/-! What the worker needs of its configuration: threads to send requests to, and timeouts that
can be added to the clock. While no thread dies, nothing else ends its loop for want of
threads or of time.
-/

namespace Casket

open Lib

/-- The sum is a time. -/
def SystemTime.Fits (time : SystemTime) (span : Duration) : Prop :=
  (time + span) / 1000000000 < 2 ^ 63

instance (time : SystemTime) (span : Duration) : Decidable (time.Fits span) :=
  inferInstanceAs (Decidable (_ < _))

theorem SystemTime.add?_eq_none {time : SystemTime} {span : Duration}
    : time.add? span = none ↔ ¬ time.Fits span := by
  unfold SystemTime.add? SystemTime.Fits
  split
  · next fits => exact ⟨nofun, fun not => absurd fits not⟩
  · next exceeds => exact ⟨fun _ => exceeds, fun _ => rfl⟩

namespace WorkerLoop

-----------------------------------------------------------------------------------------
-- What is promised, what is asked of a step, and what follows
-----------------------------------------------------------------------------------------

/-- No thread dies, and the calls tell so: a send finds the threads alive, and a channel is
closed only when there are none.
-/
def Lives (self : WorkerLoop) : WorkerInput → Prop
  | .event io =>
      io.alive
        = List.replicate self.worker.pythonThreads.queuedReqs.length self.pool.alive
      ∧ (io.observed.codeStartsEnd = .disconnected ∨ io.observed.responsesEnd = .disconnected →
        self.pool.alive = [])
  | .threadDies _ => False
  | _ => True

/-- A step that sends requests to the python threads. -/
def sendsRequests (self : WorkerLoop) : WorkerInput → Bool
  | .event _ =>
      match self.phase with
      | .events ((_, .queuedRequests) :: _) _ _ => self.worker.pythonThreads.hasQueuedReqs
      | _ => false
  | _ => false

/-- The sum a step makes for a deadline. -/
def deadline? (cfg : Config) (self : WorkerLoop)
    : WorkerInput → Option (SystemTime × Duration)
  | .action result now =>
      match self.phase.nextResult, result with
      | some (.ok (.newServerRequest _ _), _), .ok () => some (now, cfg.requestReadTimeout)
      | some (.ok (.serverPythonCodeTimeoutNew _ st), _), _ => some (st, cfg.pythonCodeTimeout)
      | _, _ => none
  | _ => none

/-- Requests are sent only to threads that exist, and every deadline is a time. -/
def Serves (cfg : Config) (self : WorkerLoop) (input : WorkerInput) : Prop :=
  (self.sendsRequests input = true → 0 < cfg.numThreads)
  ∧ ∀ sum ∈ self.deadline? cfg input, SystemTime.Fits sum.1 sum.2

/-- The loop did not end for want of threads or of time. -/
structure Served (state : WorkerLoop) : Prop where
  threads : state.phase ≠ .returned (.error .pythonThreadsDied)
  time : state.phase ≠ .panicked .timeOverflow

instance (self : WorkerLoop) (input : WorkerInput) : Decidable (self.Lives input) :=
  match input with
  | .event _ => inferInstanceAs (Decidable (_ ∧ (_ → _)))
  | .threadDies _ => isFalse id
  | .top | .tick .. | .action .. | .timeout _ | .reregister _ | .advance | .socket _
  | .codeStart .. | .respond .. =>
      isTrue trivial

instance (cfg : Config) (self : WorkerLoop) (input : WorkerInput)
    : Decidable (self.Serves cfg input) :=
  haveI : Decidable (∀ sum ∈ self.deadline? cfg input, SystemTime.Fits sum.1 sum.2) :=
    Option.decidableForallMem (self.deadline? cfg input)
  inferInstanceAs (Decidable (_ ∧ _))

-----------------------------------------------------------------------------------------
-- The threads of a run in which none dies
-----------------------------------------------------------------------------------------

/-- All threads are there, and with none of them no request is pending. -/
structure Staffed (cfg : Config) (state : WorkerLoop) : Prop where
  wired : state.worker.poll.Wired
  alive : state.pool.alive = List.range cfg.numThreads
  senders : state.worker.pythonThreads.reqSend.senders = List.range cfg.numThreads
  unstaffed
    : cfg.numThreads = 0 →
        state.worker.pythonThreads.numPendingReqs = 0
        ∧ ∀ item ∈ state.phase.eventsBuf, item.2 ≠ .pollPythonResponses

end WorkerLoop

/-- A queue whose receivers are all alive forgets none of them. -/
theorem WorkQ.send_alive {queue after : WorkQ} {alive : Nat → Bool} {receiver : Option Nat}
    (staffed : queue.senders ≠ []) (all : ∀ receiver ∈ queue.senders, alive receiver = true)
    (sent : queue.send alive = .ok (receiver, after))
    : receiver.isSome = true ∧ after.senders = queue.senders := by
  have filled : queue.senders.isEmpty = false := by
    rw [List.isEmpty_eq_false_iff]
    exact staffed
  simp only [send, sendLoop, filled, Bool.false_eq_true, if_false] at sent
  split at sent
  · cases sent
  · next next found =>
      rw [if_pos (all next (List.mem_of_getElem? found))] at sent
      obtain ⟨rfl, rfl⟩ := Prod.mk.inj (Except.ok.inj sent)
      exact ⟨rfl, rfl⟩

namespace PythonThreads

variable {self after : PythonThreads} {pool outside : PythonPool}

/-- With all threads alive every request is sent, by induction on the queue. -/
theorem sendLoop_alive {requests : List (Token × HttpRequest)} {result : RuntimeResult}
    {threads : List Nat}
    (staffed : requests ≠ [] → threads ≠ []) (senders : self.reqSend.senders = threads)
    (sent
      : self.sendLoop pool requests (List.replicate requests.length threads)
        = .ok (after, outside, result))
    : result = .ok () ∧ after.reqSend.senders = threads
      ∧ outside.alive = pool.alive := by
  induction requests generalizing self pool with
  | nil =>
      obtain ⟨rfl, same⟩ := Prod.mk.inj (Except.ok.inj sent)
      obtain ⟨rfl, rfl⟩ := Prod.mk.inj same
      exact ⟨rfl, senders, rfl⟩
  | cons request rest ih =>
      have some := staffed (List.cons_ne_nil _ _)
      have all : ∀ receiver ∈ self.reqSend.senders, decide (receiver ∈ threads) = true :=
        fun receiver member => decide_eq_true (senders ▸ member)
      simp only [sendLoop, List.length_cons, List.replicate_succ, List.headD_cons,
        List.tail_cons] at sent
      split at sent
      · cases sent
      · next died =>
          have kept := WorkQ.send_alive (senders ▸ some) all died
          cases kept.1
      · next thread reqSend handed =>
          have kept := WorkQ.send_alive (senders ▸ some) all handed
          obtain ⟨ok, same, alive⟩ := ih (fun _ => some) (kept.2.trans senders) sent
          exact ⟨ok, same, alive⟩

theorem sendQueuedRequests_alive {result : RuntimeResult} {threads : List Nat}
    (staffed : self.queuedReqs ≠ [] → threads ≠ []) (senders : self.reqSend.senders = threads)
    (sent
      : self.sendQueuedRequests pool (List.replicate self.queuedReqs.length threads)
        = .ok (after, outside, result))
    : result = .ok () ∧ after.reqSend.senders = threads ∧ outside.alive = pool.alive := by
  unfold sendQueuedRequests at sent
  have emptied : ({ self with queuedReqs := [] } : PythonThreads).reqSend.senders = threads :=
    senders
  exact sendLoop_alive staffed emptied sent

/-- With no thread the first request finds the queue closed. -/
theorem sendLoop_unstaffed (pool : PythonPool) {request : Token × HttpRequest}
    {rest : List (Token × HttpRequest)} {alive : List (List Nat)}
    (senders : self.reqSend.senders = [])
    : ∃ threads outside,
        self.sendLoop pool (request :: rest) alive
        = .ok (threads, outside, .error .pythonThreadsDied) := by
  have closed
      : self.reqSend.send (fun thread => thread ∈ alive.headD [])
        = .ok (none, { self.reqSend with pos := self.reqSend.pos + 1 }) := by
    simp only [WorkQ.send, WorkQ.sendLoop, senders, List.isEmpty_nil, if_true]
  simp only [sendLoop, closed]
  exact ⟨_, _, rfl⟩

/-- Taking responses leaves the queue to the threads alone, by induction on them. -/
theorem takeLoop_reqSend {results more : List ActionResult}
    {responses : List (Token × HttpResponse)}
    (took : self.takeLoop results responses = .ok (after, more))
    : after.reqSend = self.reqSend := by
  induction responses generalizing self results with
  | nil =>
      obtain ⟨rfl, -⟩ := Prod.mk.inj (Except.ok.inj took)
      rfl
  | cons response rest ih =>
      simp only [takeLoop] at took
      split at took
      · cases took
      · split at took
        · have same := ih took
          exact same
        · have same := ih took
          exact same

/-- A poll whose channels are open leaves the queue and the threads as they are. -/
theorem takeResponses_alive {observed : Observed} {results : List ActionResult}
    (took : self.takeResponses pool [] observed = .ok (after, outside, results, .ok ()))
    : after.reqSend = self.reqSend ∧ outside.alive = pool.alive := by
  obtain ⟨-, -, -, -, -, -, elsewhere, -⟩ := takeResponses_spec took
  refine ⟨?_, by rw [elsewhere]⟩
  simp only [takeResponses] at took
  split at took
  · cases took
  · split at took
    · cases took
    · next taken =>
        split at took
        · obtain ⟨rfl, -⟩ := Prod.mk.inj (Except.ok.inj took)
          exact takeLoop_reqSend taken
        · cases took

/-- Only a closed channel makes it report that the threads died. -/
theorem takeResponses_died {observed : Observed} {results : List ActionResult}
    {e : RuntimeError}
    (took : self.takeResponses pool [] observed = .ok (after, outside, results, .error e))
    : observed.codeStartsEnd = .disconnected ∨ observed.responsesEnd = .disconnected := by
  simp only [takeResponses] at took
  split at took
  · next closed => exact .inl closed
  · split at took
    · cases took
    · split at took
      · cases took
      · next closed => exact .inr closed

end PythonThreads

namespace WorkerLoop

variable {cfg : Config} {crates : Crates} {bincode : Bincode} {self after : WorkerLoop}
  {input : WorkerInput}

theorem newRecv_senders (receivers : List Nat) (queue : WorkQ)
    : (receivers.foldl WorkQ.newRecv queue).senders = queue.senders ++ receivers := by
  induction receivers generalizing queue with
  | nil => exact (List.append_nil _).symm
  | cons receiver rest ih =>
      rw [List.foldl_cons, ih, WorkQ.newRecv, List.append_assoc, List.singleton_append]

theorem staffed_new (cfg : Config) : (WorkerLoop.new cfg).Staffed cfg where
  wired := wired_new cfg
  alive := rfl
  senders := newRecv_senders (List.range cfg.numThreads) .new
  unstaffed _ := ⟨rfl, nofun⟩

/-- A handled result keeps the threads and the events. -/
theorem Settles.staffed {res : ActionResult} {result : Except IoError Unit}
    (settles : self.Settles bincode res result after) (staffed : self.Staffed cfg)
    : after.Staffed cfg := by
  have wired := settles.wired staffed.wired
  cases settles with
  | _ => exact ⟨wired, staffed.alive, staffed.senders, staffed.unstaffed⟩

/-- A step that serves sends requests only where there are threads. -/
theorem Serves.filled {tk : Token} {evs : List (Token × Event)}
    {tmos : List (Token × Timeout)} {results : List ActionResult} {io : WorkerEventIo}
    (serves : self.Serves cfg (.event io))
    (stands : self.phase = .events ((tk, .queuedRequests) :: evs) tmos results)
    (some : self.worker.pythonThreads.queuedReqs ≠ [])
    : List.range cfg.numThreads ≠ [] := by
  rw [ne_eq, List.range_eq_nil]
  refine Nat.ne_of_gt (serves.1 ?_)
  rw [sendsRequests, stands, PythonThreads.hasQueuedReqs, Bool.not_eq_true',
    List.isEmpty_eq_false_iff]
  exact some

/-- Nothing but the queue sends, and with no thread only an empty queue does. -/
theorem handleEvent_staffed {tk : Token} {ev : Event} {io : WorkerEventIo}
    (taken : self.handleEvent cfg crates bincode tk ev io = some after)
    (runs : after.phase.running = true)
    (lives
      : io.alive
        = List.replicate self.worker.pythonThreads.queuedReqs.length self.pool.alive)
    (filled
      : ev = .queuedRequests → self.worker.pythonThreads.queuedReqs ≠ [] →
          List.range cfg.numThreads ≠ [])
    (polls : cfg.numThreads = 0 → ev ≠ .pollPythonResponses) (staffed : self.Staffed cfg)
    : after.Staffed cfg := by
  have delivers := handleEvent_delivers taken runs
  have wired : after.worker.poll.Wired := delivers.poll ▸ staffed.wired
  cases ev with
  | queuedRequests =>
      obtain rfl := Option.some.inj taken
      unfold queuedRequests at runs wired ⊢
      split
      · next panicked => rw [panicked] at runs; cases runs
      · next ended => rw [ended] at runs; cases runs
      · next threads pool sent =>
          rw [sent] at wired
          obtain ⟨-, -, -, pending, -, -⟩ := PythonThreads.sendQueuedRequests_spec sent
          rw [lives, staffed.alive] at sent
          obtain ⟨-, senders, alive⟩ :=
            PythonThreads.sendQueuedRequests_alive (filled rfl) staffed.senders sent
          refine ⟨wired, alive.trans staffed.alive, senders, fun none => ⟨?_, ?_⟩⟩
          · dsimp only [note]
            rw [pending, (staffed.unstaffed none).1]
            by_cases some : self.worker.pythonThreads.queuedReqs = []
            · rw [some]
              rfl
            · exact absurd (none ▸ rfl) (filled rfl some)
          · exact (staffed.unstaffed none).2
  | pollPythonResponses =>
      cases delivers with
      | pollPythonResponses took =>
          obtain ⟨same, alive⟩ := PythonThreads.takeResponses_alive took
          refine ⟨wired, alive.trans staffed.alive, ?_, fun none => absurd rfl (polls none)⟩
          exact (congrArg WorkQ.senders same).trans staffed.senders
  | _ =>
      cases delivers <;>
        refine ⟨wired, staffed.alive, staffed.senders, fun none => ?_⟩ <;>
        simpa only [pushResults, pushTimeout, note, WorkerPhase.eventsBuf_pushResults,
          WorkerPhase.eventsBuf_pushTimeout] using staffed.unstaffed none

/-- With no request pending the top of the loop polls no thread. -/
theorem loopTop_unstaffed (goes : self.finished = false)
    (idle : self.worker.pythonThreads.numPendingReqs = 0)
    : ∀ item ∈ self.loopTop.phase.eventsBuf, item.2 ≠ .pollPythonResponses := by
  rw [loopTop_goes goes rfl]
  intro item member
  rcases List.mem_append.mp member with stream | poll
  · obtain ⟨stream, -, rfl⟩ := List.mem_map.mp stream
    exact nofun
  · rcases List.mem_append.mp poll with pending | queued
    · rw [if_neg (by omega)] at pending
      cases pending
    · split at queued
      · obtain rfl := List.mem_singleton.mp queued
        exact nofun
      · cases queued

/-- A tick polls none either. -/
theorem tick_unstaffed {poll next : Poller} {events delivered : List (Token × Event)}
    {now : SystemTime} {popped : List TimerEntry} {polled : Except IoError (List MioEvent)}
    (wired : poll.Wired) (pops : poll.Pops now popped)
    (ticked : poll.tick events now popped polled = .ok (next, .ok delivered))
    (none : ∀ item ∈ events, item.2 ≠ .pollPythonResponses)
    : ∀ item ∈ delivered, item.2 ≠ .pollPythonResponses := by
  obtain ⟨reads, writes, signals, order, draws, signal⟩ := Poller.tick_delivers ticked
  intro item member
  rcases List.mem_append.mp (order.mem_iff.mp member) with old | new
  · rcases List.mem_append.mp old with event | timer
    · exact none item event
    · obtain ⟨entry, there, rfl⟩ := List.mem_map.mp timer
      have armed : entry ∈ poll.timerq := (List.mem_filter.mp (pops.1.mem_iff.mp there)).1
      rcases wired.timerq entry armed with timeout | timeout <;> rw [timeout] <;> exact nofun
  · rcases List.mem_append.mp new with drawn | interrupt
    · rcases List.mem_append.mp drawn with read | write
      · rcases wired.read (draws.reads.found read).1 with is | is <;> rw [is] <;> exact nofun
      · rcases wired.write (draws.writes.found write).1 with is | is | is <;>
          rw [is] <;> exact nofun
    · rw [signal item interrupt]
      exact nofun

/-- Every step that serves keeps the worker staffed. -/
theorem step_staffed (taken : self.step cfg crates bincode input = some after)
    (runs : after.phase.running = true) (lives : self.Lives input)
    (serves : self.Serves cfg input) (staffed : self.Staffed cfg)
    : after.Staffed cfg := by
  have moved {phase : WorkerPhase} (none : phase.eventsBuf = [])
      : { self with phase }.Staffed cfg := by
    refine ⟨staffed.wired, staffed.alive, staffed.senders, fun zero => ?_⟩
    refine ⟨(staffed.unstaffed zero).1, ?_⟩
    dsimp only
    rw [none]
    intro item member
    cases member
  have takes := step_takes taken runs
  have wired := takes.wired staffed.wired
  cases takes with
  | top stands goes =>
      have worker : self.loopTop.worker.pythonThreads = self.worker.pythonThreads := by
        rw [loopTop_goes goes rfl]
        rfl
      have pool : self.loopTop.pool = self.pool := by
        rw [loopTop_goes goes rfl]
        rfl
      refine ⟨wired, pool ▸ staffed.alive, worker ▸ staffed.senders, fun zero => ?_⟩
      have idle := (staffed.unstaffed zero).1
      exact ⟨worker ▸ idle, loopTop_unstaffed goes idle⟩
  | tick stands pops ticked =>
      refine ⟨wired, staffed.alive, staffed.senders, fun zero => ?_⟩
      obtain ⟨idle, none⟩ := staffed.unstaffed zero
      rw [stands] at none
      exact ⟨idle, tick_unstaffed staffed.wired pops ticked none⟩
  | @event tk ev evs tmos results io _ stands delivers =>
      simp only [step, stands] at taken
      have first : (tk, ev) ∈ self.phase.eventsBuf := by
        rw [stands]
        exact List.mem_cons_self
      refine handleEvent_staffed taken runs lives.1 ?_ ?_ ?_
      · rintro rfl
        exact serves.filled stands
      · exact fun zero => (staffed.unstaffed zero).2 _ first
      · refine ⟨staffed.wired, staffed.alive, staffed.senders, fun zero => ?_⟩
        obtain ⟨idle, none⟩ := staffed.unstaffed zero
        rw [stands] at none
        exact ⟨idle, fun item member => none item (List.mem_cons_of_mem _ member)⟩
  | delivered | acted | expired | settled => exact moved rfl
  | timeout stands expires =>
      cases expires with
      | stale => exact moved rfl
      | requestRead | pythonCode =>
          refine ⟨wired, staffed.alive, staffed.senders, fun zero => ?_⟩
          refine ⟨(staffed.unstaffed zero).1, ?_⟩
          intro item member
          cases member
  | reregistered stands =>
      refine ⟨wired, staffed.alive, staffed.senders, fun zero => ?_⟩
      refine ⟨(staffed.unstaffed zero).1, ?_⟩
      intro item member
      cases member
  | result popped settles =>
      obtain ⟨-, -, -, none, -⟩ := WorkerPhase.nextResult_spec popped
      exact settles.staffed (moved none)
  | socket | codeStart | respond =>
      exact ⟨wired, staffed.alive, staffed.senders, staffed.unstaffed⟩
  | threadDies => exact lives.elim

-----------------------------------------------------------------------------------------
-- How a worker ends
-----------------------------------------------------------------------------------------

/-- The two sums the worker makes. -/
theorem deadline?_request {tk : Token} {tcpStream : TcpStream} {phase : WorkerPhase}
    {now : SystemTime}
    (popped : self.phase.nextResult = some (.ok (.newServerRequest tk tcpStream), phase))
    : self.deadline? cfg (.action (.ok ()) now) = some (now, cfg.requestReadTimeout) := by
  simp only [deadline?, popped]

theorem deadline?_code {tk : Token} {st : SystemTime} {phase : WorkerPhase}
    {result : Except IoError Unit} {now : SystemTime}
    (popped : self.phase.nextResult = some (.ok (.serverPythonCodeTimeoutNew tk st), phase))
    : self.deadline? cfg (.action result now) = some (st, cfg.pythonCodeTimeout) := by
  simp only [deadline?, popped]

theorem served_of_running {state : WorkerLoop} (runs : state.phase.running = true)
    : state.Served where
  threads ended := by
    rw [ended] at runs
    cases runs
  time ended := by
    rw [ended] at runs
    cases runs

/-- A step that serves does not end the loop for want of threads or of time. -/
theorem Stops.served {phase : WorkerPhase} (stops : self.Stops cfg crates bincode input phase)
    (lives : self.Lives input) (serves : self.Serves cfg input) (staffed : self.Staffed cfg)
    : phase ≠ .returned (.error .pythonThreadsDied) ∧ phase ≠ .panicked .timeOverflow := by
  have calm {panic : Panic} (inner : panic.inner = true) : panic ≠ .timeOverflow := by
    rintro rfl
    cases inner
  cases stops with
  | finished | io => exact ⟨nofun, nofun⟩
  | tick _ failed =>
      refine ⟨nofun, fun same => ?_⟩
      exact calm (Poller.tick_inner failed) (WorkerPhase.panicked.inj same)
  | @event tk ev evs tmos results io phase stands breaks =>
      refine ⟨?_, ?_⟩
      · rintro rfl
        cases breaks with
        | sendDied failed =>
            rw [lives.1, staffed.alive] at failed
            have sent :=
              PythonThreads.sendQueuedRequests_alive (serves.filled stands) staffed.senders failed
            cases sent.1
        | takeDied failed =>
            have none := lives.2 (PythonThreads.takeResponses_died failed)
            rw [staffed.alive, List.range_eq_nil] at none
            refine (staffed.unstaffed none).2 (tk, .pollPythonResponses) ?_ rfl
            rw [stands]
            exact List.mem_cons_self
      · rintro rfl
        cases breaks.lacks rfl
  | result popped misses =>
      refine ⟨nofun, ?_⟩
      rintro same
      obtain rfl := WorkerPhase.panicked.inj same
      cases misses with
      | readTimeout overflows =>
          exact SystemTime.add?_eq_none.mp overflows (serves.2 _ (deadline?_request popped))
      | codeTimeout overflows =>
          exact SystemTime.add?_eq_none.mp overflows (serves.2 _ (deadline?_code popped))

/-- With no thread a request that waits ends the loop. -/
theorem queuedRequests_unstaffed {io : WorkerEventIo}
    (senders : self.worker.pythonThreads.reqSend.senders = [])
    (some : self.worker.pythonThreads.hasQueuedReqs = true)
    : (self.queuedRequests io).phase = .returned (.error .pythonThreadsDied) := by
  rw [PythonThreads.hasQueuedReqs, Bool.not_eq_true', List.isEmpty_eq_false_iff] at some
  obtain ⟨request, rest, waits⟩ := List.exists_cons_of_ne_nil some
  have emptied
      : ({ self.worker.pythonThreads with queuedReqs := [] } : PythonThreads).reqSend.senders
        = [] :=
    senders
  obtain ⟨threads, outside, died⟩ :=
    PythonThreads.sendLoop_unstaffed self.pool emptied
  unfold queuedRequests PythonThreads.sendQueuedRequests
  rw [waits, died]
  rfl

/-- A sum that is no time ends the loop. -/
theorem handleAction_overflows {res : ActionResult} {phase : WorkerPhase}
    {result : Except IoError Unit} {now : SystemTime} {sum : SystemTime × Duration}
    (popped : self.phase.nextResult = some (res, phase))
    (asked : self.deadline? cfg (.action result now) = some sum)
    (exceeds : ¬ SystemTime.Fits sum.1 sum.2)
    : ({ self with phase }.handleResult cfg bincode res result now).phase
      = .panicked .timeOverflow := by
  simp only [deadline?, popped] at asked
  split at asked
  · next same =>
      obtain ⟨rfl, -⟩ := Prod.mk.inj (Option.some.inj same)
      obtain rfl := Option.some.inj asked
      simp only [handleResult, handleAction, called, armTimer,
        SystemTime.add?_eq_none.mpr exceeds, panics]
  · next same =>
      obtain ⟨rfl, -⟩ := Prod.mk.inj (Option.some.inj same)
      obtain rfl := Option.some.inj asked
      simp only [handleResult, handleAction, armTimer, SystemTime.add?_eq_none.mpr exceeds,
        panics]
  · cases asked

/-- A step that does not serve ends it. -/
theorem step_unserved (taken : self.step cfg crates bincode input = some after)
    (staffed : self.Staffed cfg) (not : ¬ self.Serves cfg input)
    : ¬ after.Served := by
  rintro ⟨threads, time⟩
  refine not ⟨fun sends => ?_, fun sum asked => ?_⟩
  · refine Nat.pos_of_ne_zero fun none => threads ?_
    unfold sendsRequests at sends
    split at sends
    · split at sends
      · next stands =>
          simp only [step, stands, handleEvent] at taken
          obtain rfl := Option.some.inj taken
          have senders := staffed.senders
          rw [none] at senders
          exact queuedRequests_unstaffed senders sends
      · cases sends
    · cases sends
  · by_contra exceeds
    cases input with
    | action result now =>
        rw [step_action] at taken
        obtain ⟨⟨res, phase⟩, popped, rfl⟩ := Option.map_eq_some_iff.mp taken
        exact time (handleAction_overflows popped asked exceeds)
    | _ => cases asked

-----------------------------------------------------------------------------------------
-- Every step of a worker
-----------------------------------------------------------------------------------------

/-- A worker whose steps have served so far. -/
structure Fit (cfg : Config) (state : WorkerLoop) : Prop where
  served : state.Served
  staffed : state.phase.running = true → state.Staffed cfg

theorem fit_new (cfg : Config) : (WorkerLoop.new cfg).Fit cfg where
  served := served_of_running rfl
  staffed _ := staffed_new cfg

/-- A loop that has ended sends nothing and makes no sum. -/
theorem serves_of_ended (ended : self.phase.running = false) : self.Serves cfg input := by
  constructor
  · intro sends
    unfold sendsRequests at sends
    split at sends
    · split at sends
      · next stands =>
          rw [stands] at ended
          cases ended
      · cases sends
    · cases sends
  · intro sum asked
    cases input with
    | action result now =>
        cases popped : self.phase.nextResult with
        | none =>
            simp only [deadline?, popped] at asked
            cases asked
        | some next =>
            obtain ⟨res, rest⟩ := next
            cases stands : self.phase with
            | returned | panicked => rw [stands] at popped; cases popped
            | _ => rw [stands] at ended; cases ended
    | _ => cases asked

/-- A step ends the loop for want of threads or of time exactly if it does not serve. -/
theorem step_served_iff (taken : self.step cfg crates bincode input = some after)
    (lives : self.Lives input) (fit : self.Fit cfg)
    : after.Served ↔ self.Serves cfg input := by
  cases runs : self.phase.running with
  | true =>
      have staffed := fit.staffed runs
      constructor
      · intro served
        by_contra not
        exact step_unserved taken staffed not served
      · intro serves
        cases still : after.phase.running with
        | true => exact served_of_running still
        | false =>
            obtain ⟨stops, -⟩ := step_stops taken runs still
            obtain ⟨threads, time⟩ := stops.served lives serves staffed
            exact ⟨threads, time⟩
  | false =>
      have same := (step_ended taken runs).1
      refine ⟨fun _ => serves_of_ended runs, fun _ => ⟨?_, ?_⟩⟩
      · rw [same]
        exact fit.served.threads
      · rw [same]
        exact fit.served.time

/-- A step that serves leaves the worker fit. -/
theorem step_fit (taken : self.step cfg crates bincode input = some after)
    (lives : self.Lives input) (serves : self.Serves cfg input) (fit : self.Fit cfg)
    : after.Fit cfg where
  served := (step_served_iff taken lives fit).mpr serves
  staffed still := by
    cases runs : self.phase.running with
    | true => exact step_staffed taken still lives serves (fit.staffed runs)
    | false =>
        rw [(step_ended taken runs).1, runs] at still
        cases still

end WorkerLoop
end Casket
