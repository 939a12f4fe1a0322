import Casket.Worker.Manned
import Casket.Worker.Staff
import Casket.Worker.Staged

/-! The python threads of a process. Each of them serves what it was handed, one request after
the other and each to its end, whatever the other threads and the loop do meanwhile; and every
request that was sent was handed to one of them.
-/

namespace Casket

open Lib

-----------------------------------------------------------------------------------------
-- The receivers of the queue
-----------------------------------------------------------------------------------------

/-- A value goes to one of the receivers, and only those are left. Witness: induction on the
turns of the loop.
-/
theorem WorkQ.sendLoop_senders {alive : Nat → Bool} {turns : Nat} {queue after : WorkQ}
    {receiver : Option Nat} (sent : queue.sendLoop alive turns = .ok (receiver, after))
    : after.senders ⊆ queue.senders ∧ ∀ n ∈ receiver, n ∈ queue.senders := by
  induction turns generalizing queue with
  | zero =>
      obtain ⟨rfl, rfl⟩ := Prod.mk.inj (Except.ok.inj sent)
      exact ⟨List.Subset.refl _, nofun⟩
  | succ turns ih =>
      rw [sendLoop] at sent
      split at sent
      · obtain ⟨rfl, rfl⟩ := Prod.mk.inj (Except.ok.inj sent)
        exact ⟨List.Subset.refl _, nofun⟩
      · generalize (if queue.pos = queue.senders.length then 0 else queue.pos) = pos at sent
        dsimp only at sent
        split at sent
        · cases sent
        · next found =>
            split at sent
            · obtain ⟨rfl, rfl⟩ := Prod.mk.inj (Except.ok.inj sent)
              refine ⟨List.Subset.refl _, ?_⟩
              rintro n is
              obtain rfl := Option.some.inj is
              exact List.mem_of_getElem? found
            · obtain ⟨fewer, among⟩ := ih sent
              have rest := (List.eraseIdx_sublist queue.senders pos).subset
              exact ⟨List.Subset.trans fewer rest, fun n member => rest (among n member)⟩

namespace PythonThreads

variable {self after : PythonThreads} {pool outside : PythonPool}

/-- A queue of requests is handed to receivers of the queue, by induction on the requests. -/
theorem sendLoop_among {requests : List (Token × HttpRequest)} {alive : List (List Nat)}
    {result : RuntimeResult}
    (sent : self.sendLoop pool requests alive = .ok (after, outside, result))
    : after.reqSend.senders ⊆ self.reqSend.senders
      ∧ ∃ handed,
          outside.outstanding = pool.outstanding ++ handed
          ∧ ∀ item ∈ handed, item.1 ∈ self.reqSend.senders := by
  induction requests generalizing self pool alive with
  | nil =>
      obtain ⟨rfl, same⟩ := Prod.mk.inj (Except.ok.inj sent)
      obtain ⟨rfl, -⟩ := Prod.mk.inj same
      exact ⟨List.Subset.refl _, [], (List.append_nil _).symm, nofun⟩
  | cons request rest ih =>
      simp only [sendLoop] at sent
      split at sent
      · cases sent
      · next reqSend died =>
          obtain ⟨rfl, same⟩ := Prod.mk.inj (Except.ok.inj sent)
          obtain ⟨rfl, -⟩ := Prod.mk.inj same
          exact ⟨(WorkQ.sendLoop_senders died).1, [], (List.append_nil _).symm, nofun⟩
      · next thread reqSend took =>
          obtain ⟨fewer, among⟩ := WorkQ.sendLoop_senders took
          obtain ⟨less, handed, outstanding, others⟩ := ih sent
          refine ⟨List.Subset.trans less fewer, (thread, request.1) :: handed, ?_, ?_⟩
          · rw [outstanding, List.append_assoc, List.singleton_append]
          · intro item member
            rcases List.mem_cons.mp member with rfl | later
            · exact among thread rfl
            · exact fewer (others item later)

/-- So is the whole queue. -/
theorem sendQueuedRequests_among {alive : List (List Nat)} {result : RuntimeResult}
    (sent : self.sendQueuedRequests pool alive = .ok (after, outside, result))
    : after.reqSend.senders ⊆ self.reqSend.senders
      ∧ ∀ item ∈ outside.outstanding.drop pool.outstanding.length,
          item.1 ∈ self.reqSend.senders := by
  obtain ⟨fewer, handed, outstanding, among⟩ := sendLoop_among sent
  rw [outstanding, List.drop_left]
  exact ⟨fewer, among⟩

end PythonThreads

-----------------------------------------------------------------------------------------
-- What a step of the loop does to the receivers
-----------------------------------------------------------------------------------------

namespace WorkerLoop

variable {cfg : Config} {crates : Crates} {bincode : Bincode} {self after : WorkerLoop}
  {input : WorkerInput}

/-- No step adds a receiver. -/
theorem Takes.senders (takes : self.Takes cfg bincode input after)
    : after.worker.pythonThreads.reqSend.senders
      ⊆ self.worker.pythonThreads.reqSend.senders := by
  cases takes with
  | top stands goes =>
      rw [loopTop_goes goes rfl]
      exact List.Subset.refl _
  | event stands delivers =>
      cases delivers with
      | queuedRequests sent => exact (PythonThreads.sendQueuedRequests_among sent).1
      | pollPythonResponses took =>
          have same := (PythonThreads.takeResponses_alive took).1
          exact fun n member => (congrArg WorkQ.senders same ▸ member :)
      | _ => exact List.Subset.refl _
  | timeout stands expires => cases expires <;> exact List.Subset.refl _
  | result popped settles => cases settles <;> exact List.Subset.refl _
  | _ => exact List.Subset.refl _

/-- So the receivers are the threads that were spawned, or some of them. -/
theorem senders_reach {guard : WorkerLoop → WorkerInput → Prop} {state : WorkerLoop}
    (run : Reach (step cfg crates bincode) guard (.new cfg) state)
    (runs : state.phase.running = true)
    : state.worker.pythonThreads.reqSend.senders ⊆ List.range cfg.numThreads := by
  refine running_reach
    (fun state =>
      state.worker.pythonThreads.reqSend.senders ⊆ List.range cfg.numThreads)
    ?_ (fun earlier _ takes => List.Subset.trans takes.senders earlier) run runs
  exact fun n member => (newRecv_senders (List.range cfg.numThreads) .new ▸ member :)

end WorkerLoop

-----------------------------------------------------------------------------------------
-- Every request that was sent is with one thread
-----------------------------------------------------------------------------------------

/-- The keys of the requests that threads were handed. -/
def PythonThread.handedKeys (threads : List PythonThread) : Multiset Token :=
  ((threads.flatMap PythonThread.handed).map Prod.fst : List Token)

/-- Handing some requests to threads that exist adds their keys, by induction on them. -/
theorem handedKeys_handAll {handed : List (Nat × Token × HttpRequest)}
    {threads : List PythonThread} (among : ∀ item ∈ handed, item.1 < threads.length)
    : PythonThread.handedKeys
        (handed.foldl
          (fun threads (m, request) => threads.modify m fun thread => thread.hand request)
          threads)
      = PythonThread.handedKeys threads + (handed.map (·.2.1) : List Token) := by
  induction handed generalizing threads with
  | nil => exact (add_zero _).symm
  | cons head rest ih =>
      obtain ⟨m, request⟩ := head
      rw [List.foldl_cons, ih]
      · obtain ⟨front, thread, back, split, -, modified⟩ :=
          List.exists_of_modify (fun thread => thread.hand request)
            (among _ List.mem_cons_self)
        have one
            : PythonThread.handedKeys
                (threads.modify m fun thread => thread.hand request)
              = PythonThread.handedKeys threads + {request.1} := by
          rw [PythonThread.handedKeys, PythonThread.handedKeys, modified]
          conv_rhs => rw [split]
          simp only [List.flatMap_append, List.flatMap_cons, PythonThread.hand, List.map_append,
            ← Multiset.coe_add, List.map_cons, List.map_nil, Multiset.coe_singleton]
          abel
        rw [one, List.map_cons, ← Multiset.cons_coe, ← Multiset.singleton_add, add_assoc]
      · intro item member
        rw [List.length_modify]
        exact among item (List.mem_cons_of_mem _ member)

namespace WorkerLoop

variable {cfg : Config} {crates : Crates} {bincode : Bincode} {self after : WorkerLoop}
  {input : WorkerInput}

/-- A step that does not send the queue notes no request as sent. -/
theorem step_unsent (taken : self.step cfg crates bincode input = some after)
    (keeps
      : ∀ io, input = .event io → ∀ tk, self.phase.nextEvent? ≠ some (tk, .queuedRequests))
    : total WorkerEffect.sends after.trace = total WorkerEffect.sends self.trace := by
  obtain ⟨effects, trace, notes⟩ := step_notes taken
  have none : total WorkerEffect.sends effects = 0 := by
    refine total_eq_zero fun effect member => ?_
    cases effect with
    | sent tk =>
        obtain ⟨io, tk, is, next⟩ := notes _ member
        exact absurd next (keeps io is tk)
    | _ => rfl
  rw [trace, total_append, none, add_zero]

/-- Only a loop that runs handles an event. -/
theorem event_runs {io : WorkerEventIo}
    (taken : self.step cfg crates bincode (.event io) = some after)
    : self.phase.running = true := by
  cases stands : self.phase with
  | returned | panicked => simp only [step, stands, reduceCtorEq] at taken
  | _ => rfl

/-- A step of the queue sends all of it, or nothing. -/
theorem step_sent {tk : Token} {io : WorkerEventIo}
    (next : self.phase.nextEvent? = some (tk, .queuedRequests))
    (taken : self.step cfg crates bincode (.event io) = some after)
    : (∃ threads pool,
        self.worker.pythonThreads.sendQueuedRequests self.pool io.alive
          = .ok (threads, pool, .ok ())
        ∧ after.trace
          = self.trace
            ++ ((pool.outstanding.drop self.pool.outstanding.length).map Prod.snd).map .sent)
      ∨ (∀ threads pool,
          self.worker.pythonThreads.sendQueuedRequests self.pool io.alive
          ≠ .ok (threads, pool, .ok ()))
        ∧ after.trace = self.trace := by
  cases stands : self.phase with
  | events evs tmos results =>
      rw [stands] at next
      cases evs with
      | nil => cases next
      | cons first evs =>
          obtain rfl := Option.some.inj next
          simp only [step, stands] at taken
          obtain rfl := Option.some.inj taken
          unfold queuedRequests
          split
          · next panicked =>
              refine .inr ⟨fun threads pool sent => ?_, rfl⟩
              cases panicked.symm.trans sent
          · next ended =>
              refine .inr ⟨fun threads pool sent => ?_, rfl⟩
              cases ended.symm.trans sent
          · next threads pool sent => exact .inl ⟨threads, pool, sent, rfl⟩
  | _ => rw [stands] at next; cases next

end WorkerLoop

-----------------------------------------------------------------------------------------
-- Every thread is `run` over what it was handed
-----------------------------------------------------------------------------------------

/-- Requests that are sent to a thread come last. -/
theorem PythonThread.Runs.handAll {parser : StatusParser} {cfg : Config}
    {server : String × UInt16} {thread : PythonThread} {jobs : List Job}
    {blocks : List (List ThreadEvent)} {locals : ReqLocal} {events : List ThreadEvent}
    (runs : thread.Runs parser cfg server jobs blocks locals events)
    (requests : List (Token × HttpRequest))
    : (thread.handAll requests).Runs parser cfg server jobs blocks locals events where
  serves := runs.serves
  alive := runs.alive
  progress := runs.progress
  seen := runs.seen
  handed := by
    dsimp only [PythonThread.handAll]
    rw [runs.handed, List.append_assoc, List.append_assoc]

namespace WorkerProcess

variable {parser : StatusParser} {cfg : Config} {crates : Crates} {bincode : Bincode}
  {self after : WorkerProcess} {loop : WorkerLoop}

/-- Each thread that has not ended runs, and every request that was sent was handed to one of
the threads.
-/
structure Crewed (parser : StatusParser) (cfg : Config) (process : WorkerProcess) : Prop where
  count : process.threads.length = cfg.numThreads
  runs
    : ∀ (n : Nat) (thread : PythonThread),
        process.threads[n]? = some thread →
        thread.phase.alive = true →
        ∃ jobs blocks locals events,
          thread.Runs parser cfg cfg.server jobs blocks locals events
  handed
    : PythonThread.handedKeys process.threads
      = total WorkerEffect.sends process.loop.trace

theorem crewed_new (parser : StatusParser) (cfg : Config) : (new cfg).Crewed parser cfg where
  count := List.length_replicate
  runs n thread found _ := by
    have is : thread = .new := by
      rw [new] at found
      exact (List.mem_replicate.mp (List.mem_of_getElem? found)).2
    subst is
    exact ⟨[], [], .init, [], PythonThread.runs_new⟩
  handed := by
    have none (n : Nat) : (List.replicate n PythonThread.new).flatMap PythonThread.handed = [] :=
      List.flatMap_eq_nil_iff.mpr fun thread member =>
        (List.mem_replicate.mp member).2 ▸ rfl
    rw [PythonThread.handedKeys, new, none]
    rfl

/-- Threads of which some have ended. -/
theorem Crewed.ending (crewed : self.Crewed parser cfg)
    (count : after.threads.length = self.threads.length)
    (found
      : ∀ (n : Nat) (thread : PythonThread),
          after.threads[n]? = some thread →
          thread.phase.alive = true →
          self.threads[n]? = some thread)
    (handed
      : PythonThread.handedKeys after.threads = PythonThread.handedKeys self.threads)
    (trace : after.loop.trace = self.loop.trace)
    : after.Crewed parser cfg where
  count := count.trans crewed.count
  runs n thread there lives := crewed.runs n thread (found n thread there lives) lives
  handed := by rw [handed, trace, crewed.handed]

/-- A thread that changes keeps what it was handed, by induction on those before it. -/
theorem handedKeys_set {threads : List PythonThread} {n : Nat} {thread next : PythonThread}
    (found : threads[n]? = some thread) (same : next.handed = thread.handed)
    : PythonThread.handedKeys (threads.set n next) = PythonThread.handedKeys threads := by
  rw [PythonThread.handedKeys, PythonThread.handedKeys]
  congr 2
  induction threads generalizing n with
  | nil => cases found
  | cons first rest ih =>
      cases n with
      | zero =>
          obtain rfl := Option.some.inj found
          rw [List.set_cons_zero, List.flatMap_cons, List.flatMap_cons, same]
      | succ n => rw [List.set_cons_succ, List.flatMap_cons, List.flatMap_cons, ih found]

theorem Crewed.die (crewed : self.Crewed parser cfg) (n : Nat)
    : (self.die n).Crewed parser cfg := by
  refine crewed.ending (List.length_modify _ _ _) ?_ ?_ rfl
  · intro m thread there lives
    rw [getElem?_die] at there
    obtain ⟨earlier, found, rfl⟩ := Option.map_eq_some_iff.mp there
    split at lives
    · cases lives
    · next apart =>
        rw [if_neg apart]
        exact found
  · dsimp only [WorkerProcess.die]
    cases found : self.threads[n]? with
    | none => rw [List.modify_eq_self (List.getElem?_eq_none_iff.mp found)]
    | some thread =>
        rw [modify_found _ found]
        exact handedKeys_set found rfl

theorem Crewed.dieAll (crewed : self.Crewed parser cfg) (dying : List Nat)
    : (dying.foldl WorkerProcess.die self).Crewed parser cfg := by
  induction dying generalizing self with
  | nil => exact crewed
  | cons n rest ih => exact ih (crewed.die n)

/-- Nothing is handed on when not all of the queue is sent. -/
theorem handed_unsent {tk : Token} {io : WorkerEventIo}
    (next : self.loop.phase.nextEvent? = some (tk, .queuedRequests))
    (unsent
      : ∀ threads pool,
          self.loop.worker.pythonThreads.sendQueuedRequests self.loop.pool io.alive
          ≠ .ok (threads, pool, .ok ()))
    : self.handed io = [] := by
  simp only [handed, next]
  split
  · next sent => exact absurd sent (unsent _ _)
  · rfl
  · rfl

/-- An event of the loop hands each request it sends to a thread. -/
theorem Crewed.eventDone (crewed : self.Crewed parser cfg) {io : WorkerEventIo}
    (taken : self.loop.step cfg crates bincode (.event (self.withBody io)) = some loop)
    (senders
      : ∀ n ∈ self.loop.worker.pythonThreads.reqSend.senders, n < cfg.numThreads)
    : (self.eventDone io loop).Crewed parser cfg where
  count := (length_handAll _ _).trans crewed.count
  runs n thread found lives := by
    rw [getElem?_eventDone] at found
    obtain ⟨earlier, there, rfl⟩ := Option.map_eq_some_iff.mp found
    obtain ⟨jobs, blocks, locals, events, runs⟩ := crewed.runs n earlier there lives
    exact ⟨jobs, blocks, locals, events, runs.handAll _⟩
  handed := by
    have quiet (none : self.handed io = [])
        (trace
          : total WorkerEffect.sends loop.trace = total WorkerEffect.sends self.loop.trace)
        : PythonThread.handedKeys (self.eventDone io loop).threads
          = total WorkerEffect.sends loop.trace := by
      rw [trace, ← crewed.handed, WorkerProcess.eventDone, none]
      rfl
    by_cases sends : ∃ tk, self.loop.phase.nextEvent? = some (tk, .queuedRequests)
    · obtain ⟨tk, next⟩ := sends
      have calls : self.withBody io = io := by rw [withBody, next]
      rw [calls] at taken
      rcases WorkerLoop.step_sent next taken with ⟨threads, pool, sent, trace⟩ | ⟨unsent, trace⟩
      · obtain ⟨same, -⟩ := handed_sent next sent
        obtain ⟨-, among⟩ := PythonThreads.sendQueuedRequests_among sent
        have given
            : pool.outstanding.drop self.loop.pool.outstanding.length
              = (self.handed io).map fun item => (item.1, item.2.1) := by
          rw [same]
          exact List.drop_left
        rw [given] at among trace
        have within : ∀ item ∈ self.handed io, item.1 < self.threads.length := by
          intro item member
          rw [crewed.count]
          exact senders item.1 (among _ (List.mem_map_of_mem member))
        refine (handedKeys_handAll within).trans ?_
        rw [crewed.handed]
        dsimp only [WorkerProcess.eventDone]
        rw [trace, total_append, List.map_map, List.map_map,
          total_map WorkerEffect.sends _ (fun item => item.2.1) fun _ => rfl]
      · exact quiet (handed_unsent next unsent) (by rw [trace])
    · have keeps : ∀ tk, self.loop.phase.nextEvent? ≠ some (tk, .queuedRequests) :=
        fun tk next => sends ⟨tk, next⟩
      exact quiet (handed_none keeps).1 (WorkerLoop.step_unsent taken fun _ _ => keeps)

/-- Nothing of a thread is noted by the loop. -/
theorem sends_trace {n : Nat} {act : ThreadAct} (phase : ThreadPhase)
    : (self.sends n phase act).loop.trace = self.loop.trace := by
  unfold sends
  split
  · split <;> rfl
  · split <;> rfl
  · rfl
  · rfl
  · rfl

/-- An act keeps what the thread was handed. -/
theorem handed_acts {thread next : PythonThread} {act : ThreadAct} {lines : List ThreadLine}
    (acts : thread.Acts parser cfg cfg.server act next lines)
    : next.handed = thread.handed := by
  cases acts <;> rfl

/-- A step of a thread is one of `run`, or its end. -/
theorem Crewed.threadStep (crewed : self.Crewed parser cfg) {n : Nat} {act : ThreadAct}
    (taken : self.threadStep parser cfg n act = some after)
    : after.Crewed parser cfg := by
  obtain ⟨thread, next, lines, found, steps, rfl⟩ := threadStep_steps taken
  have within := (List.getElem?_eq_some_iff.mp found).1
  have trace : (self.sends n thread.phase act).loop.trace = self.loop.trace :=
    sends_trace thread.phase
  rcases PythonThread.step_acts steps with ⟨acts, -⟩ | ⟨rfl, -, -⟩
  · refine ⟨(List.length_set).trans crewed.count, ?_, ?_⟩
    · intro m other there lives
      by_cases same : n = m
      · subst same
        rw [List.getElem?_set_self within] at there
        obtain rfl := Option.some.inj there
        obtain ⟨jobs, blocks, locals, events, runs⟩ :=
          crewed.runs n thread found (alive_acts acts).1
        exact runs.acts acts
      · rw [List.getElem?_set_ne same] at there
        exact crewed.runs m other there lives
    · rw [handedKeys_set found (handed_acts acts), crewed.handed]
      exact congrArg _ trace.symm
  · refine crewed.ending List.length_set ?_ (handedKeys_set found rfl) trace
    intro m other there lives
    by_cases same : n = m
    · subst same
      rw [List.getElem?_set_self within] at there
      obtain rfl := Option.some.inj there
      cases lives
    · rwa [List.getElem?_set_ne same] at there

/-- Every step keeps the threads at their requests. -/
theorem Goes.crewed {input : ProcessInput}
    (goes : self.Goes parser cfg crates bincode input after)
    (senders
      : self.loop.phase.running = true →
        self.loop.worker.pythonThreads.reqSend.senders ⊆ List.range cfg.numThreads)
    (crewed : self.Crewed parser cfg)
    : after.Crewed parser cfg := by
  cases goes with
  | event taken =>
      refine Crewed.dieAll (crewed.eventDone taken ?_) _
      exact fun n member => List.mem_range.mp (senders (WorkerLoop.event_runs taken) member)
  | loop own other taken =>
      refine ⟨crewed.count, crewed.runs, crewed.handed.trans ?_⟩
      exact (WorkerLoop.step_unsent taken fun io is => absurd is (other io)).symm
  | thread taken => exact crewed.threadStep taken

/-- So every run does. -/
theorem crewed_reach
    (run : Reach (step parser cfg crates bincode) (fun _ _ => True) (.new cfg) self)
    : self.Crewed parser cfg := by
  refine run.along (fun process => process.Crewed parser cfg) (crewed_new parser cfg) ?_
  intro before label after earlier crewed _ taken
  refine (step_goes taken).crewed (fun runs => ?_) crewed
  exact WorkerLoop.senders_reach (manned_reach earlier).1 runs

end WorkerProcess
end Casket
