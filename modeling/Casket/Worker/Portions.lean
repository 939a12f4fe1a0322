import Casket.Worker.Answers

/-! Every client gets its own answer. What the loop writes keeps what is known of each stream,
and so does what the threads send.
-/

namespace Casket

open Lib

-----------------------------------------------------------------------------------------
-- What an event writes
-----------------------------------------------------------------------------------------

namespace WorkerLoop

variable {cfg : Config} {crates : Crates} {bincode : Bincode} {self after : WorkerLoop}

/-- A write leaves its stream with the result it pushes. -/
theorem step_writes {io : WorkerEventIo} {tk : Token} {ev : Event}
    (next : self.phase.nextEvent? = some (tk, ev))
    (writes : ev = .serverStreamWrite ∨ ev = .casketResponseWrite)
    (taken : self.step cfg crates bincode (.event io) = some after)
    (runs : after.phase.running = true)
    : ∃ res stage,
        res ∈ self.pushed after
        ∧ self.EventPushes io tk ev res
        ∧ ActionResult.staged? res = some (tk, stage)
        ∧ (tk, stage) ∈ after.staged := by
  cases step_takes taken runs with
  | @event other found evs tmos results _ _ stands delivers =>
      have is : (other, found) = (tk, ev) := by
        rw [stands] at next
        exact Option.some.inj next
      obtain ⟨rfl, rfl⟩ := Prod.mk.inj is
      have pushes := (step_pushes stands taken runs).2
      have same : self.pushed after
          = { self with phase := .events evs tmos results }.pushed after := by
        rw [pushed, pushed, stands]
        rfl
      have one {res : ActionResult} {stage : Stage}
          (pushed : self.pushed after = [res])
          (is : ActionResult.staged? res = some (other, stage))
          : ∃ res stage,
              res ∈ self.pushed after
              ∧ self.EventPushes io other found res
              ∧ ActionResult.staged? res = some (other, stage)
              ∧ (other, stage) ∈ after.staged := by
        have there : res ∈ self.pushed after := pushed ▸ List.mem_cons_self
        refine ⟨res, stage, there, pushes res there, is, ?_⟩
        exact mem_staged_result (List.mem_of_mem_drop there) is
      rcases writes with rfl | rfl
      · cases delivers with
        | serverStreamWrite _ gives =>
            cases gives <;> exact one (same.trans (pushed_pushResults rfl rfl)) rfl
      · cases delivers with
        | casketResponseWrite _ gives =>
            cases gives <;> exact one (same.trans (pushed_pushResults rfl rfl)) rfl

end WorkerLoop

namespace WorkerProcess

variable {parser : StatusParser} {cfg : Config} {crates : Crates} {bincode : Bincode}
  {self after : WorkerProcess} {loop : WorkerLoop} {tk : Token} {io : WorkerEventIo}

/-- What an event changes of the bytes the clients have and of the channels. -/
inductive Writes (self : WorkerProcess) (io : WorkerEventIo)
    : (Token → Bytes) → (Token → Receiver) → Prop
  | nothing : Writes self io self.accepted self.bodies
  | response {key tcpStream writer bodies}
    (next : self.loop.phase.nextEvent? = some (key, .serverStreamWrite))
    (found : self.loop.worker.serverWritingStreams.lookup key = some (tcpStream, writer))
    (channels
      : bodies
        = if writer.httpResp.respBody.isSome then
            Function.update self.bodies key (self.bodies key).afterTry
          else
            self.bodies)
    : Writes self io
        (Function.update self.accepted key
          (self.accepted key
            ++ (writer.overBody (self.bodies key)).takeChunk.buffer.take
              (io.write.toOption.getD 0)))
        bodies
  | casket {key tcpStream casketResp}
    (next : self.loop.phase.nextEvent? = some (key, .casketResponseWrite))
    (found : self.loop.worker.serverCasketResponses.lookup key = some (tcpStream, casketResp))
    : Writes self io
        (Function.update self.accepted key
          (self.accepted key
            ++ (casketResp.response.drop casketResp.bytesSent).take
              (io.write.toOption.getD 0)))
        self.bodies

/-- An event without a write adds no bytes, and one with a write those it accepts. -/
theorem accepted_eventDone (self : WorkerProcess) (io : WorkerEventIo) (loop : WorkerLoop)
    : (self.eventDone io loop).accepted
      = match self.write? io with
        | some (key, _, bytes) =>
            Function.update self.accepted key (self.accepted key ++ bytes)
        | none => self.accepted := by
  funext tk
  unfold accepted eventDone
  cases self.write? io with
  | none => simp
  | some write =>
      obtain ⟨key, tcpStream, bytes⟩ := write
      by_cases here : tk = key
      · subst here
        simp
      · simp [here, Ne.symm here]

/-- Every event changes them in one of these ways. -/
theorem eventDone_writes (self : WorkerProcess) (io : WorkerEventIo) (loop : WorkerLoop)
    : self.Writes io (self.eventDone io loop).accepted self.taken := by
  rw [accepted_eventDone]
  unfold write? taken
  cases next : self.loop.phase.nextEvent? with
  | none => exact .nothing
  | some item =>
      obtain ⟨key, ev⟩ := item
      cases ev with
      | serverStreamWrite =>
          dsimp only
          cases found : self.loop.worker.serverWritingStreams.lookup key with
          | none => exact .nothing
          | some value => exact .response next found rfl
      | casketResponseWrite =>
          dsimp only
          cases found : self.loop.worker.serverCasketResponses.lookup key with
          | none => exact .nothing
          | some value => exact .casket next found
      | _ => exact .nothing

/-- An event leaves the others alone. -/
theorem Writes.same {accepted : Token → Bytes} {bodies : Token → Receiver}
    (writes : self.Writes io accepted bodies)
    (response
      : ∀ value,
          self.loop.phase.nextEvent? = some (tk, .serverStreamWrite) →
          self.loop.worker.serverWritingStreams.lookup tk ≠ some value)
    (casket
      : ∀ value,
          self.loop.phase.nextEvent? = some (tk, .casketResponseWrite) →
          self.loop.worker.serverCasketResponses.lookup tk ≠ some value)
    : accepted tk = self.accepted tk ∧ bodies tk = self.bodies tk := by
  cases writes with
  | nothing => exact ⟨rfl, rfl⟩
  | @response key _ _ _ next found channels =>
      have apart : tk ≠ key := by
        rintro rfl
        exact response _ next found
      rw [Function.update_of_ne apart, channels]
      split
      · exact ⟨rfl, Function.update_of_ne apart _ _⟩
      · exact ⟨rfl, rfl⟩
  | @casket key _ _ next found =>
      have apart : tk ≠ key := by
        rintro rfl
        exact casket _ next found
      exact ⟨Function.update_of_ne apart _ _, rfl⟩

theorem eventDone_same
    (response
      : ∀ value,
          self.loop.phase.nextEvent? = some (tk, .serverStreamWrite) →
          self.loop.worker.serverWritingStreams.lookup tk ≠ some value)
    (casket
      : ∀ value,
          self.loop.phase.nextEvent? = some (tk, .casketResponseWrite) →
          self.loop.worker.serverCasketResponses.lookup tk ≠ some value)
    : self.SameAt (self.eventDone io loop) tk := by
  obtain ⟨accepted, bodies⟩ := (self.eventDone_writes io loop).same response casket
  exact ⟨accepted, .inl bodies, rfl⟩

/-- So it leaves streams alone to which nothing is being sent. -/
theorem eventDone_unsent (quiet : ¬ self.loop.Sending tk)
    : self.SameAt (self.eventDone io loop) tk := by
  refine eventDone_same ?_ ?_
  · rintro ⟨tcpStream, writer⟩ - found
    exact quiet (.inl ⟨writer, WorkerLoop.mem_staged_writing found⟩)
  · rintro ⟨tcpStream, casketResp⟩ - found
    exact quiet (.inr ⟨casketResp, WorkerLoop.mem_staged_casket found⟩)

/-- What was handed to threads waited in the queue. -/
theorem handed_queued {item : Nat × Token × HttpRequest} (member : item ∈ self.handed io)
    : item.2 ∈ self.loop.worker.pythonThreads.queuedReqs := by
  unfold handed at member
  split at member
  · split at member
    · exact (List.of_mem_zip member).2
    · cases member
    · cases member
  · cases member

/-- An event moves the process on. -/
theorem eventDone_moves
    (taken : self.loop.step cfg crates bincode (.event (self.withBody io)) = some loop)
    : self.Moves (self.eventDone io loop) where
  answered := rfl
  reads := by
    rcases WorkerLoop.step_reads taken with none_ | ⟨tk, httpReq, one, unread, runs, read⟩
    · left
      exact (congrArg (self.read ++ ·) none_).trans (List.append_nil _)
    · exact .inr ⟨tk, httpReq, congrArg (self.read ++ ·) one, unread, runs, read⟩
  same _ quiet := eventDone_unsent quiet

/-- The bytes a write hands to a client are a front of what its writer carries. -/
theorem Live.owns (live : self.Live parser cfg) (kept : self.Kept parser cfg) (tk : Token)
    : (self.eventDone io loop).Owns parser cfg tk := by
  have writes := self.eventDone_writes io loop
  have other (accepted : (self.eventDone io loop).accepted tk = self.accepted tk)
      : (self.eventDone io loop).Owns parser cfg tk := by
    cases kept.owns tk with
    | refused is front => exact .refused is (accepted ▸ front)
    | answered known key front => exact .answered known key (accepted ▸ front)
  generalize same : (self.eventDone io loop).accepted = accepted at writes
  generalize self.taken = bodies at writes
  cases writes with
  | nothing => exact other (congrFun same tk)
  | @response key tcpStream writer _ next found =>
      by_cases here : tk = key
      · subst here
        obtain ⟨job, known, is, carries⟩ := live.stage (WorkerLoop.mem_staged_writing found)
        refine .answered known is ?_
        rw [same, Function.update_self]
        have flow := carries.takeChunk.flow
        have whole
            : (self.eventDone io loop).whole parser cfg job
              = (job.response parser cfg cfg.server).writeHeader
                ++ (self.yielded tk).flatten := by
          rw [← is]
          rfl
        rw [whole, ← flow]
        exact (List.prefix_append_right_inj _).mpr
          ((List.take_prefix _ _).trans (List.prefix_append _ _))
      · exact other ((congrFun same tk).trans (Function.update_of_ne here _ _))
  | @casket key tcpStream casketResp next found =>
      by_cases here : tk = key
      · subst here
        obtain ⟨is, front⟩ := live.stage (WorkerLoop.mem_staged_casket found)
        refine .refused is ?_
        rw [same, Function.update_self, front, ← List.take_add]
        exact List.take_prefix _ _
      · exact other ((congrFun same tk).trans (Function.update_of_ne here _ _))

/-- What a write of a response makes of its stage. -/
theorem Live.wrote (live : self.Live parser cfg)
    (next : self.loop.phase.nextEvent? = some (tk, .serverStreamWrite))
    {tcpStream : TcpStream} {writer : Writer} {res : ActionResult} {item : Token × Stage}
    (found : self.loop.worker.serverWritingStreams.lookup tk = some (tcpStream, writer))
    (within
      : io.write.toOption.getD 0
        ≤ (writer.overBody (self.bodies tk)).takeChunk.buffer.length)
    (event
      : eventServerStreamWrite tk tcpStream (writer.overBody (self.bodies tk)) io.write
        = .ok res)
    (is : ActionResult.staged? res = some item)
    : (self.eventDone io loop).StageHolds parser cfg item.1 item.2 := by
  obtain ⟨job, known, key, carries⟩ := live.stage (WorkerLoop.mem_staged_writing found)
  have took := carries.takeChunk
  have accepted
      : (self.eventDone io loop).accepted tk
        = self.accepted tk
          ++ (writer.overBody (self.bodies tk)).takeChunk.buffer.take
            (io.write.toOption.getD 0) := by
    simp only [accepted_eventDone, write?, next, found, Option.map_some, Function.update_self]
  have channel {other : Writer}
      (left : other.httpResp = (writer.overBody (self.bodies tk)).takeChunk.httpResp)
      : other.overBody ((self.eventDone io loop).bodies tk) = other := by
    refine Writer.overBody_self fun body there => ?_
    rw [left] at there
    obtain ⟨some_, rest⟩ := Writer.takeChunk_respBody there
    rw [rest]
    simp only [eventDone, WorkerProcess.taken, next, found, some_, if_true, Function.update_self]
  have connected
      : ((self.eventDone io loop).bodies tk).connected = (self.bodies tk).connected :=
    self.taken_connected tk
  unfold eventServerStreamWrite Writer.writeTcpStream at event
  cases write : io.write with
  | error e =>
      rw [write] at event
      obtain rfl := Except.ok.inj event
      obtain rfl := Option.some.inj is
      trivial
  | ok size =>
      rw [write] at event within accepted
      dsimp only at event
      rcases took.wrote within with ⟨later, partly, still⟩ | ⟨whole, gone, all⟩
      · have same : (writer.overBody (self.bodies tk)).takeChunk.wrote size
            = .ok (.partialWrite later) := partly
        rw [same] at event
        obtain rfl := Except.ok.inj event
        obtain rfl := Option.some.inj is
        refine ⟨job, known, key, ?_⟩
        dsimp only
        rw [channel (Writer.wrote_httpResp same), connected, accepted]
        exact still
      · have same := whole
        rw [show (Except.ok size : Except IoError Nat).toOption.getD 0 = size from rfl] at same
        rw [same] at event
        obtain rfl := Except.ok.inj event
        obtain rfl := Option.some.inj is
        refine ⟨job, known, key, ?_, connected.trans gone⟩
        rw [accepted, all, ← key]
        rfl

/-- What a write of a casket response makes of its stage. -/
theorem Live.casket (live : self.Live parser cfg)
    (next : self.loop.phase.nextEvent? = some (tk, .casketResponseWrite))
    {tcpStream : TcpStream} {casketResp : CasketResponse} {res : ActionResult}
    {item : Token × Stage}
    (found : self.loop.worker.serverCasketResponses.lookup tk = some (tcpStream, casketResp))
    (event : eventCasketResponseWrite tk tcpStream casketResp io.write = .ok res)
    (is : ActionResult.staged? res = some item)
    : (self.eventDone io loop).StageHolds parser cfg item.1 item.2 := by
  obtain ⟨known, front⟩ := live.stage (WorkerLoop.mem_staged_casket found)
  have accepted
      : (self.eventDone io loop).accepted tk
        = casketResp.response.take
          (casketResp.bytesSent + io.write.toOption.getD 0) := by
    simp only [accepted_eventDone, write?, next, found, Option.map_some, Function.update_self]
    rw [front, ← List.take_add]
  unfold eventCasketResponseWrite at event
  split at event
  · cases event
  · cases write : io.write with
    | error e =>
        rw [write] at event
        obtain rfl := Except.ok.inj event
        obtain rfl := Option.some.inj is
        trivial
    | ok size =>
        rw [write] at event accepted
        dsimp only at event
        split at event
        · next done =>
            obtain rfl := Except.ok.inj event
            obtain rfl := Option.some.inj is
            have all : (self.eventDone io loop).accepted tk = casketResp.response := by
              rw [accepted]
              exact List.take_of_length_le (Nat.le_of_eq done.symm)
            exact (all ▸ known : (self.eventDone io loop).accepted tk ∈ refusals)
        · obtain rfl := Except.ok.inj event
          obtain rfl := Option.some.inj is
          exact ⟨known, accepted⟩

-----------------------------------------------------------------------------------------
-- Every step of the loop
-----------------------------------------------------------------------------------------

/-- What is known while the loop runs is kept by a step after which it still does. -/
theorem Live.stepped (live : self.Live parser cfg) (kept : self.Kept parser cfg)
    (moves : self.Moves after) (apart : self.loop.Apart) (later : after.loop.Apart)
    (distinct : ((total WorkerEffect.came after.loop.trace).map Prod.fst).Nodup)
    (wired : self.loop.worker.poll.Wired) {input : WorkerInput} (own : input.ofThread = false)
    (taken : self.loop.step cfg crates bincode input = some after.loop)
    (runs : after.loop.phase.running = true)
    (sent
      : ∀ item ∈ after.loop.staged,
          item ∈ self.loop.staged → self.loop.Sending item.1 →
          after.StageHolds parser cfg item.1 item.2)
    (pushed
      : ∀ item io tk ev evs tmos results res,
          input = .event io →
          self.loop.phase = .events ((tk, ev) :: evs) tmos results →
          self.loop.EventPushes io tk ev res →
          res ∈ self.loop.pushed after.loop →
          ActionResult.staged? res = some item →
          item ∈ after.loop.staged →
          after.StageHolds parser cfg item.1 item.2)
    : after.Live parser cfg where
  staged item member := by
    have stems := WorkerLoop.step_stems taken runs wired member
    refine live.stems kept moves apart later distinct member stems (sent item member) ?_
    intro io tk ev evs tmos results res same stands pushes there is
    exact pushed item io tk ev evs tmos results res same stands pushes there is member
  queued := by
    intro request waits
    rcases WorkerLoop.step_queue taken runs waits with was | read
    · exact moves.read (live.queued was)
    · exact moves.read (live.stage read).2
  responses := by
    intro tk httpResp waits
    rw [moves.answered]
    rcases waits with channel | handled
    · exact live.responses tk httpResp (.inl (WorkerLoop.step_channel taken runs own channel))
    · exact live.responses tk httpResp (WorkerLoop.step_responses taken runs handled).symm

/-- What an event pushes has the stage it should. -/
theorem Live.pushed (live : self.Live parser cfg) (apart : self.loop.Apart)
    (later : loop.Apart)
    (taken : self.loop.step cfg crates bincode (.event (self.withBody io)) = some loop)
    {ev : Event} {evs : List (Token × Event)} {tmos : List (Token × Timeout)}
    {results : List ActionResult} {res : ActionResult} {item : Token × Stage}
    (stands : self.loop.phase = .events ((tk, ev) :: evs) tmos results)
    (pushes : self.loop.EventPushes (self.withBody io) tk ev res)
    (there : res ∈ self.loop.pushed loop) (is : ActionResult.staged? res = some item)
    (member : item ∈ loop.staged)
    : (self.eventDone io loop).StageHolds parser cfg item.1 item.2 := by
  have moves := self.eventDone_moves taken
  have next : self.loop.phase.nextEvent? = some (tk, ev) := by rw [stands]; rfl
  have unread (here : (tk, .unread) ∈ self.loop.staged)
      : (self.eventDone io loop).Untouched tk := by
    have quiet := not_sending apart here (fun _ is => by cases is) fun _ is => by cases is
    exact (eventDone_unsent quiet).untouched (live.stage here).1
  cases pushes with
  | @refused fd =>
      obtain rfl := Option.some.inj is
      have waits : (tk, .newStreamFd fd) ∈ self.loop.phase.eventsBuf := by
        rw [stands]
        exact List.mem_cons_self
      have arrives : (tk, .unread) ∈ self.loop.staged := WorkerLoop.mem_staged_arrival waits
      refine ⟨by simp [refusals], ?_⟩
      exact (unread arrives).accepted
  | @accepted fd =>
      obtain rfl := Option.some.inj is
      have waits : (tk, .newStreamFd fd) ∈ self.loop.phase.eventsBuf := by
        rw [stands]
        exact List.mem_cons_self
      have arrives : (tk, .unread) ∈ self.loop.staged := WorkerLoop.mem_staged_arrival waits
      exact ⟨unread arrives, moves.unread later member (live.stage arrives).2⟩
  | read found gives =>
      have here := WorkerLoop.mem_staged_reading found
      cases gives with
      | «continue» =>
          obtain rfl := Option.some.inj is
          exact ⟨unread here, moves.unread later member (live.stage here).2⟩
      | done =>
          obtain rfl := Option.some.inj is
          refine ⟨unread here, ?_⟩
          exact List.mem_append_right _ (List.mem_filterMap.mpr ⟨_, there, rfl⟩)
      | streamEOF | failed =>
          obtain rfl := Option.some.inj is
          trivial
  | started | responded => cases is
  | wrote found within event =>
      have calls : self.withBody io = { io with body := self.bodies tk } := by
        rw [withBody, next]
      rw [calls] at within event
      exact live.wrote next found within event is
  | casket found _ event =>
      have calls : self.withBody io = io := by rw [withBody, next]
      rw [calls] at event
      exact live.casket next found event is

/-- What is known is known after an event. -/
theorem Live.eventDone (live : self.Live parser cfg) (kept : self.Kept parser cfg)
    (apart : self.loop.Apart) (later : loop.Apart)
    (distinct : ((total WorkerEffect.came loop.trace).map Prod.fst).Nodup)
    (wired : self.loop.worker.poll.Wired)
    (taken : self.loop.step cfg crates bincode (.event (self.withBody io)) = some loop)
    (runs : loop.phase.running = true)
    : (self.eventDone io loop).Live parser cfg := by
  have moves := self.eventDone_moves taken
  refine live.stepped kept moves apart later distinct wired rfl taken runs ?_ ?_
  · rintro ⟨tk, stage⟩ member was sends
    have answered : self.answered ⊆ (self.eventDone io loop).answered := List.Subset.refl _
    by_cases writes : ∃ ev,
        self.loop.phase.nextEvent? = some (tk, ev)
        ∧ (ev = .serverStreamWrite ∨ ev = .casketResponseWrite)
    · obtain ⟨ev, next, writes⟩ := writes
      obtain ⟨res, other, there, pushes, is, here⟩ :=
        WorkerLoop.step_writes next writes taken runs
      obtain rfl := WorkerLoop.stage_unique later.once here member
      cases stands : self.loop.phase with
      | events evs tmos results =>
          rw [stands] at next
          cases evs with
          | nil => cases next
          | cons first evs =>
              obtain rfl := Option.some.inj next
              exact live.pushed apart later taken stands pushes there is member
      | _ => rw [stands] at next; cases next
    · have same : self.SameAt (self.eventDone io loop) tk := by
        refine eventDone_same ?_ ?_
        · exact fun _ next => absurd ⟨_, next, .inl rfl⟩ writes
        · exact fun _ next => absurd ⟨_, next, .inr rfl⟩ writes
      refine same.stageHolds answered moves.read ?_ (live.stage was)
      rintro rfl
      exact moves.unread later member (live.stage was).2
  · rintro item io_ tk ev evs tmos results res same stands pushes there is member
    obtain rfl := WorkerInput.event.inj same
    exact live.pushed apart later taken stands pushes there is member

/-- So is what is kept. -/
theorem Kept.eventDone (kept : self.Kept parser cfg) (live : self.Live parser cfg)
    (apart : self.loop.Apart)
    (taken : self.loop.step cfg crates bincode (.event (self.withBody io)) = some loop)
    : (self.eventDone io loop).Kept parser cfg := by
  have moves := self.eventDone_moves taken
  refine kept.stepped live moves apart taken ?_ fun tk _ => live.owns kept tk
  intro thread member request given
  obtain ⟨n, found⟩ := List.mem_iff_getElem?.mp member
  rw [getElem?_eventDone] at found
  obtain ⟨earlier, there, rfl⟩ := Option.map_eq_some_iff.mp found
  rcases List.mem_append.mp given with was | new
  · exact moves.read (kept.handed earlier (List.mem_of_getElem? there) was)
  · exact moves.read (live.queued (handed_queued (mem_forThread.mp new)))

/-- What is kept where no request is read and nothing is accepted. -/
theorem Kept.carried (kept : self.Kept parser cfg) (read : after.read = self.read)
    (trace : after.loop.trace = self.loop.trace) (accepted : after.accepted = self.accepted)
    (handed : ∀ thread ∈ after.threads, ∃ other ∈ self.threads, thread.handed = other.handed)
    (answered : ∀ job ∈ after.answered, (job.key, job.req) ∈ self.read)
    (untouched : ∀ tk, self.Untouched tk → after.Untouched tk)
    (owns : ∀ tk, self.Owns parser cfg tk → after.Owns parser cfg tk)
    (done : ∀ tk, self.Done parser cfg tk → after.Done parser cfg tk)
    : after.Kept parser cfg where
  once := read ▸ kept.once
  handed thread member := by
    obtain ⟨other, there, is⟩ := handed thread member
    rw [is, read]
    exact kept.handed other there
  answered job known := by
    rw [read]
    exact answered job known
  came request member := by
    rw [trace]
    exact kept.came request (read ▸ member)
  untouched tk never := by
    rw [trace] at never
    exact untouched tk (kept.untouched tk never)
  owns tk := owns tk (kept.owns tk)
  done response member := by
    rw [trace] at member
    exact done _ (kept.done response member)
  refused response member := by
    rw [trace] at member
    rw [accepted]
    exact kept.refused response member

/-- What is known where the loop does not go on. -/
theorem Live.carried (live : self.Live parser cfg) (read : after.read = self.read)
    (phase : after.loop.phase = self.loop.phase)
    (worker : after.loop.worker = self.loop.worker)
    (stages
      : ∀ tk stage,
          self.StageHolds parser cfg tk stage → after.StageHolds parser cfg tk stage)
    (answered : self.answered ⊆ after.answered)
    (responses
      : ∀ tk httpResp,
          (tk, httpResp) ∈ after.loop.pool.responses →
          (tk, httpResp) ∈ self.loop.pool.responses
          ∨ ∃ job ∈ after.answered,
              job.key = tk ∧ httpResp = job.response parser cfg cfg.server)
    : after.Live parser cfg where
  staged item member := by
    refine stages item.1 item.2 (live.staged item ?_)
    rw [WorkerLoop.staged, phase, worker] at member
    exact member
  queued := by
    rw [worker, read]
    exact live.queued
  responses tk httpResp waits := by
    have before
        (was
          : (tk, httpResp) ∈ self.loop.pool.responses
            ∨ .ok (.serverNewResponse tk httpResp) ∈ self.loop.phase.workerResults)
        : ∃ job ∈ after.answered,
            job.key = tk ∧ httpResp = job.response parser cfg cfg.server := by
      obtain ⟨job, known, rest⟩ := live.responses tk httpResp was
      exact ⟨job, answered known, rest⟩
    rcases waits with channel | handled
    · rcases responses tk httpResp channel with was | new
      · exact before (.inl was)
      · exact new
    · exact before (.inr (phase ▸ handled))

/-- What is known at a stage where nothing is accepted. -/
theorem stageHolds_carried {stage : Stage} (accepted : after.accepted tk = self.accepted tk)
    (read : after.read = self.read) (untouched : self.Untouched tk → after.Untouched tk)
    (done : self.Done parser cfg tk → after.Done parser cfg tk)
    (writing
      : ∀ writer,
          self.StageHolds parser cfg tk (.writing writer) →
          after.StageHolds parser cfg tk (.writing writer))
    (holds : self.StageHolds parser cfg tk stage)
    : after.StageHolds parser cfg tk stage := by
  cases stage with
  | unread => exact ⟨untouched holds.1, read ▸ holds.2⟩
  | read => exact ⟨untouched holds.1, read ▸ holds.2⟩
  | pending => exact untouched holds
  | writing writer => exact writing writer holds
  | written => exact done holds
  | refusing => exact ⟨holds.1, accepted.trans holds.2⟩
  | refused => exact (accepted ▸ holds : after.accepted tk ∈ refusals)
  | leaving => trivial

/-- What changes neither loop nor clients keeps what is kept. -/
theorem Kept.same (kept : self.Kept parser cfg) (same : ∀ tk, self.SameAt after tk)
    (answered : after.answered = self.answered) (read : after.read = self.read)
    (trace : after.loop.trace = self.loop.trace)
    (handed : ∀ thread ∈ after.threads, ∃ other ∈ self.threads, thread.handed = other.handed)
    : after.Kept parser cfg := by
  have known : self.answered ⊆ after.answered := answered ▸ List.Subset.refl _
  refine kept.carried read trace (funext fun tk => (same tk).accepted) handed ?_ ?_ ?_ ?_
  · exact fun job there => kept.answered job (answered ▸ there)
  · exact fun tk holds => (same tk).untouched holds
  · exact fun tk holds => (same tk).owns known holds
  · exact fun tk holds => (same tk).done known holds

theorem Live.same (live : self.Live parser cfg) (same : ∀ tk, self.SameAt after tk)
    (answered : after.answered = self.answered) (read : after.read = self.read)
    (phase : after.loop.phase = self.loop.phase)
    (worker : after.loop.worker = self.loop.worker)
    (responses : after.loop.pool.responses = self.loop.pool.responses)
    : after.Live parser cfg := by
  have known : self.answered ⊆ after.answered := answered ▸ List.Subset.refl _
  refine live.carried read phase worker ?_ known ?_
  · intro tk stage holds
    refine (same tk).stageHolds known (read ▸ List.Subset.refl _) ?_ holds
    rintro rfl
    exact read ▸ holds.2
  · exact fun tk httpResp channel => .inl (responses ▸ channel)

/-- A thread that dies changes no client. -/
theorem die_same (n : Nat) (tk : Token) : self.SameAt (self.die n) tk := by
  refine ⟨rfl, ?_, rfl⟩
  cases found : self.streams? n with
  | none => simp only [die, found, true_or]
  | some key =>
      simp only [die, found]
      by_cases here : tk = key
      · subst here
        exact .inr (Function.update_self _ _ _)
      · exact .inl (Function.update_of_ne here _ _)

theorem handed_die (n : Nat)
    : ∀ thread ∈ (self.die n).threads, ∃ other ∈ self.threads, thread.handed = other.handed := by
  intro thread member
  obtain ⟨m, found⟩ := List.mem_iff_getElem?.mp member
  rw [getElem?_die] at found
  obtain ⟨earlier, there, rfl⟩ := Option.map_eq_some_iff.mp found
  refine ⟨earlier, List.mem_of_getElem? there, ?_⟩
  split <;> rfl

theorem Kept.dieAll (kept : self.Kept parser cfg) (dying : List Nat)
    : (dying.foldl WorkerProcess.die self).Kept parser cfg := by
  induction dying generalizing self with
  | nil => exact kept
  | cons n rest ih => exact ih (kept.same (die_same n) rfl rfl rfl (handed_die n))

theorem Live.dieAll (live : self.Live parser cfg) (dying : List Nat)
    : (dying.foldl WorkerProcess.die self).Live parser cfg := by
  induction dying generalizing self with
  | nil => exact live
  | cons n rest ih => exact ih (live.same (die_same n) rfl rfl rfl rfl rfl)

-----------------------------------------------------------------------------------------
-- Every step of a thread
-----------------------------------------------------------------------------------------

variable {n : Nat} {thread next : PythonThread} {job : Job} {sender : BodySender}

/-- A thread answers a request of its own, for which nothing was answered. -/
structure Responds (before after : WorkerProcess) (job : Job) : Prop where
  fresh : job.key ∉ before.answered.map Job.key
  read : (job.key, job.req) ∈ before.read
  answered : after.answered = before.answered ++ [job]
  bodies : after.bodies = Function.update before.bodies job.key ⟨[], true⟩
  yielded : after.yielded = Function.update before.yielded job.key []
  accepted : after.accepted = before.accepted
  reads : after.read = before.read
  trace : after.loop.trace = before.loop.trace
  phase : after.loop.phase = before.loop.phase
  worker : after.loop.worker = before.loop.worker

namespace Responds

variable (responds : self.Responds after job)
include responds

theorem apart {other : Job} (known : other ∈ self.answered) : other.key ≠ job.key :=
  fun same => responds.fresh (same ▸ List.mem_map_of_mem known)

theorem known : self.answered ⊆ after.answered := by
  rw [responds.answered]
  exact List.subset_append_left _ _

theorem same (apart : tk ≠ job.key) : self.SameAt after tk := by
  refine ⟨congrFun responds.accepted tk, .inl ?_, ?_⟩
  · rw [responds.bodies, Function.update_of_ne apart]
  · rw [responds.yielded, Function.update_of_ne apart]

theorem done (holds : self.Done parser cfg tk) : after.Done parser cfg tk := by
  obtain ⟨other, known, key, rest⟩ := holds
  have apart : tk ≠ job.key := key ▸ responds.apart known
  exact (responds.same apart).done responds.known ⟨other, known, key, rest⟩

theorem untouched (holds : self.Untouched tk) : after.Untouched tk := by
  by_cases here : tk = job.key
  · subst here
    refine ⟨?_, ?_⟩
    · rw [responds.accepted]
      exact holds.accepted
    · rw [responds.bodies, responds.yielded, Function.update_self, Function.update_self]
  · exact (responds.same here).untouched holds

theorem kept (kept : self.Kept parser cfg)
    (handed : ∀ thread ∈ after.threads, ∃ other ∈ self.threads, thread.handed = other.handed)
    : after.Kept parser cfg := by
  refine kept.carried responds.reads responds.trace responds.accepted handed ?_
    (fun _ => responds.untouched) ?_ fun _ => responds.done
  · intro other known
    rw [responds.answered] at known
    rcases List.mem_append.mp known with was | new
    · exact kept.answered other was
    · obtain rfl := List.mem_singleton.mp new
      exact responds.read
  · intro tk holds
    cases holds with
    | refused is front =>
        refine .refused is ?_
        rw [responds.accepted]
        exact front
    | answered known key front =>
        have apart : tk ≠ job.key := key ▸ responds.apart known
        exact (responds.same apart).owns responds.known (.answered known key front)

theorem live (live : self.Live parser cfg)
    (responses
      : after.loop.pool.responses
        = self.loop.pool.responses ++ [(job.key, job.response parser cfg cfg.server)])
    : after.Live parser cfg := by
  refine live.carried responds.reads responds.phase responds.worker ?_ responds.known ?_
  · intro tk stage holds
    refine stageHolds_carried (congrFun responds.accepted tk) responds.reads responds.untouched
      responds.done ?_ holds
    rintro writer ⟨other, known, key, carries⟩
    have apart : tk ≠ job.key := key ▸ responds.apart known
    exact (responds.same apart).stageHolds responds.known (responds.reads ▸ List.Subset.refl _)
      (fun is => by cases is) ⟨other, known, key, carries⟩
  · intro tk httpResp channel
    rw [responses] at channel
    refine (List.mem_append.mp channel).imp_right fun new => ?_
    obtain ⟨rfl, rfl⟩ := Prod.mk.inj (List.mem_singleton.mp new)
    refine ⟨job, ?_, rfl, rfl⟩
    rw [responds.answered]
    exact List.mem_append_right _ List.mem_cons_self

end Responds

/-- A thread sends the next chunk of its body, or drops its end of the channel. -/
structure Streams (before after : WorkerProcess) (key : Token) (sender : BodySender) : Prop where
  open_ : (before.bodies key).connected = true
  bodies
    : after.bodies
      = Function.update before.bodies key (Delivery.received sender (before.bodies key))
  yielded
    : after.yielded
      = Function.update before.yielded key (before.yielded key ++ sender.turn.1.toList)
  accepted : after.accepted = before.accepted
  answered : after.answered = before.answered
  reads : after.read = before.read
  loop : after.loop = before.loop

namespace Streams

variable {key : Token} (streams : self.Streams after key sender)
include streams

theorem same (apart : tk ≠ key) : self.SameAt after tk := by
  refine ⟨congrFun streams.accepted tk, .inl ?_, ?_⟩
  · rw [streams.bodies, Function.update_of_ne apart]
  · rw [streams.yielded, Function.update_of_ne apart]

theorem known : self.answered ⊆ after.answered := by
  rw [streams.answered]
  exact List.Subset.refl _

theorem done (holds : self.Done parser cfg tk) : after.Done parser cfg tk := by
  have apart : tk ≠ key := by
    rintro rfl
    obtain ⟨-, -, -, -, gone⟩ := holds
    rw [streams.open_] at gone
    cases gone
  exact (streams.same apart).done streams.known holds

theorem untouched (holds : self.Untouched tk) : after.Untouched tk := by
  by_cases here : tk = key
  · subst here
    refine ⟨?_, ?_⟩
    · rw [streams.accepted]
      exact holds.accepted
    · rw [streams.bodies, streams.yielded, Function.update_self, Function.update_self,
        Delivery.received, holds.queue]
  · exact (streams.same here).untouched holds

/-- The responses that were being sent grow by what is sent of their bodies. -/
theorem whole (other : Job) : self.whole parser cfg other <+: after.whole parser cfg other := by
  rw [WorkerProcess.whole, WorkerProcess.whole, streams.yielded]
  by_cases here : other.key = key
  · rw [here, Function.update_self, List.flatten_append, ← List.append_assoc]
    exact List.prefix_append _ _
  · rw [Function.update_of_ne here]

theorem owns (holds : self.Owns parser cfg tk) : after.Owns parser cfg tk := by
  cases holds with
  | refused is front =>
      refine .refused is ?_
      rw [streams.accepted]
      exact front
  | @answered job known is front =>
      refine .answered (streams.known known) is ?_
      rw [streams.accepted]
      exact front.trans (streams.whole job)

theorem kept (kept : self.Kept parser cfg)
    (handed : ∀ thread ∈ after.threads, ∃ other ∈ self.threads, thread.handed = other.handed)
    : after.Kept parser cfg := by
  have trace : after.loop.trace = self.loop.trace := by rw [streams.loop]
  refine kept.carried streams.reads trace streams.accepted handed ?_
    (fun _ => streams.untouched) (fun _ => streams.owns) fun _ => streams.done
  exact fun other known => kept.answered other (streams.answered ▸ known)

theorem live (live : self.Live parser cfg) : after.Live parser cfg := by
  refine live.carried streams.reads (by rw [streams.loop]) (by rw [streams.loop]) ?_
    streams.known fun _ _ channel => .inl (streams.loop ▸ channel)
  intro tk stage holds
  refine stageHolds_carried (congrFun streams.accepted tk) streams.reads streams.untouched
    streams.done ?_ holds
  rintro writer ⟨other, known, is, carries⟩
  by_cases here : tk = key
  · subst here
    refine ⟨other, streams.known known, is, ?_⟩
    rw [streams.open_] at carries
    rw [streams.bodies, streams.yielded, streams.accepted, Function.update_self,
      Function.update_self, Writer.overBody_change]
    exact carries.stream sender
  · exact (streams.same here).stageHolds streams.known (streams.reads ▸ List.Subset.refl _)
      (fun is => by cases is) ⟨other, known, is, carries⟩

end Streams

/-- What a step of a thread does to the clients and their answers. -/
inductive Gives (parser : StatusParser) (cfg : Config) (before after : WorkerProcess) : Prop
  | nothing (same : ∀ tk, before.SameAt after tk)
    (answered : after.answered = before.answered) (read : after.read = before.read)
    (phase : after.loop.phase = before.loop.phase)
    (worker : after.loop.worker = before.loop.worker)
    (trace : after.loop.trace = before.loop.trace)
    (responses : after.loop.pool.responses = before.loop.pool.responses)
  | response {job : Job} (responds : before.Responds after job)
    (responses
      : after.loop.pool.responses
        = before.loop.pool.responses ++ [(job.key, job.response parser cfg cfg.server)])
  | chunk {key : Token} {sender : BodySender} (streams : before.Streams after key sender)

theorem Gives.kept (gives : Gives parser cfg self after) (kept : self.Kept parser cfg)
    (handed : ∀ thread ∈ after.threads, ∃ other ∈ self.threads, thread.handed = other.handed)
    : after.Kept parser cfg := by
  cases gives with
  | nothing same answered read _ _ trace => exact kept.same same answered read trace handed
  | response responds => exact responds.kept kept handed
  | chunk streams => exact streams.kept kept handed

theorem Gives.live (gives : Gives parser cfg self after) (live : self.Live parser cfg)
    : after.Live parser cfg := by
  cases gives with
  | nothing same answered read phase worker _ responses =>
      exact live.same same answered read phase worker responses
  | response responds responses => exact responds.live live responses
  | chunk streams => exact streams.live live

/-- The request a thread answers was handed to it. -/
theorem Crewed.inHand (crewed : self.Crewed parser cfg) (found : self.threads[n]? = some thread)
    {request : Token × HttpRequest} (has : thread.phase.inHand? = some request)
    : request ∈ thread.handed := by
  have lives : thread.phase.alive = true := by
    cases stands : thread.phase with
    | ended => rw [stands] at has; cases has
    | _ => rfl
  obtain ⟨jobs, blocks, locals, events, runs⟩ := crewed.runs n thread found lives
  rw [runs.handed, has]
  exact List.mem_append_right _ (List.mem_append_left _ List.mem_cons_self)

/-- Every step of a thread is one of these, one case for each act. -/
theorem threadStep_gives {act : ThreadAct} (kept : self.Kept parser cfg)
    (bodied : self.Bodied parser cfg) (crewed : self.Crewed parser cfg)
    (fresh
      : self.loop.phase.running = true →
        ∀ thread job resp sender,
          self.threads[n]? = some thread →
          thread.phase = .responding job resp sender →
          job.key ∉ self.answered.map Job.key)
    (taken : self.threadStep parser cfg n act = some after)
    : Gives parser cfg self after
      ∧ ∀ thread ∈ after.threads, ∃ other ∈ self.threads, thread.handed = other.handed := by
  obtain ⟨thread, next, lines, found, steps, rfl⟩ := threadStep_steps taken
  have handed (same : next.handed = thread.handed)
      : ∀ thread ∈ self.threads.set n next, ∃ other ∈ self.threads,
          thread.handed = other.handed := by
    intro other member
    rcases List.mem_or_eq_of_mem_set member with was | rfl
    · exact ⟨other, was, rfl⟩
    · exact ⟨thread, List.mem_of_getElem? found, same⟩
  rcases PythonThread.step_acts steps with ⟨acts, there⟩ | ⟨rfl, rfl, ends⟩
  · refine ⟨?_, handed (handed_acts acts)⟩
    cases acts with
    | receive | execute | log | write | writelines =>
        exact .nothing (fun tk => ⟨rfl, .inl rfl, rfl⟩) rfl rfl rfl rfl rfl rfl
    | sendCodeStart stands =>
        simp only [sends, stands]
        split
        · exact .nothing (fun tk => ⟨rfl, .inl rfl, rfl⟩) rfl rfl rfl rfl rfl rfl
        · exact .nothing (fun tk => ⟨rfl, .inl rfl, rfl⟩) rfl rfl rfl rfl rfl rfl
    | @sendResponse job resp sender stands =>
        have runs := there rfl
        obtain ⟨rfl, -⟩ := crewed.responding found stands
        have given : (job.key, job.req) ∈ thread.handed :=
          crewed.inHand found (stands ▸ rfl)
        have read := kept.handed thread (List.mem_of_getElem? found) given
        have own := fresh runs thread job _ sender found stands
        simp only [sends, stands, runs, if_true]
        exact .response ⟨own, read, rfl, rfl, rfl, rfl, rfl, rfl, rfl, rfl⟩ rfl
    | @stream job sender stands | @streamed job sender stands =>
        obtain ⟨-, open_, -⟩ := bodied.streaming n job sender ⟨thread, found, stands⟩
        simp only [sends, stands]
        exact .chunk ⟨open_, rfl, rfl, rfl, rfl, rfl, rfl⟩
  · refine ⟨?_, handed rfl⟩
    by_cases panics : act = .panic
    · subst panics
      refine .nothing (fun tk => ?_) rfl rfl rfl rfl rfl rfl
      exact ⟨rfl, (self.die_same n tk).bodies, rfl⟩
    · obtain ⟨gone, quiet⟩ := ends.resolve_left panics
      rw [sends_lost gone panics quiet]
      exact .nothing (fun tk => ⟨rfl, .inl rfl, rfl⟩) rfl rfl rfl rfl rfl rfl

-----------------------------------------------------------------------------------------
-- Every run
-----------------------------------------------------------------------------------------

/-- Nothing happened yet. -/
theorem kept_new (parser : StatusParser) (cfg : Config) : (new cfg).Kept parser cfg where
  once := List.nodup_nil
  handed thread member := by
    rw [(List.mem_replicate.mp member).2]
    exact List.Subset.refl _
  answered _ known := absurd known List.not_mem_nil
  came _ known := absurd known List.not_mem_nil
  untouched _ _ := ⟨rfl, rfl⟩
  owns _ := .refused List.mem_cons_self (List.nil_prefix)
  done _ known := absurd known List.not_mem_nil
  refused _ known := absurd known List.not_mem_nil

theorem live_new (parser : StatusParser) (cfg : Config) : (new cfg).Live parser cfg where
  staged _ known := absurd known (Multiset.notMem_zero _)
  queued := List.Subset.refl _
  responses _ _ waits := by rcases waits with is | is <;> cases is

/-- In every run of a process to which no token came twice, every client has only what is its
own, whatever the loop and the threads do in which order.
-/
theorem portions_reach
    (run : Reach (step parser cfg crates bincode) (fun _ _ => True) (.new cfg) self)
    (distinct : ((total WorkerEffect.came self.loop.trace).map Prod.fst).Nodup)
    : self.Kept parser cfg ∧ (self.loop.phase.running = true → self.Live parser cfg) := by
  refine run.along
    (fun process =>
      ((total WorkerEffect.came process.loop.trace).map Prod.fst).Nodup →
      process.Kept parser cfg ∧ (process.loop.phase.running = true → process.Live parser cfg))
    (fun _ => ⟨kept_new parser cfg, fun _ => live_new parser cfg⟩) ?_ distinct
  intro before label after earlier known _ taken distinct
  have goes := step_goes taken
  obtain ⟨reached, manned⟩ := manned_reach earlier
  have once := Multiset.nodup_of_le (Multiset.map_le_map (goes.came manned)) distinct
  obtain ⟨kept, live⟩ := known once
  have apart (runs : before.loop.phase.running = true) : before.loop.Apart :=
    WorkerLoop.apart_reach reached runs once
  have wired (runs : before.loop.phase.running = true) : before.loop.worker.poll.Wired :=
    (WorkerLoop.conserved_reach reached runs).1
  cases goes with
  | @event io loop stepped =>
      have ran := WorkerLoop.event_runs stepped
      have whole : ((total WorkerEffect.came loop.trace).map Prod.fst).Nodup := by
        rw [around, dieAll_trace] at distinct
        exact distinct
      refine ⟨(kept.eventDone (live ran) (apart ran) stepped).dieAll _, fun runs => ?_⟩
      have still : loop.phase.running = true := (dieAll_phase _ ▸ runs :)
      have later : loop.Apart :=
        WorkerLoop.apart_reach (reached.next trivial stepped) still whole
      exact ((live ran).eventDone kept (apart ran) later whole (wired ran) stepped still).dieAll _
  | @loop input loop own other stepped =>
      have same (tk : Token) : before.SameAt { before with loop } tk := ⟨rfl, .inl rfl, rfl⟩
      have moves : before.Moves { before with loop } := ⟨rfl, .inl rfl, fun tk _ => same tk⟩
      have handed : ∀ thread ∈ before.threads, ∃ other ∈ before.threads,
          thread.handed = other.handed := fun thread there => ⟨thread, there, rfl⟩
      cases ran : before.loop.phase.running with
      | false =>
          obtain ⟨phase, -, trace⟩ := WorkerLoop.step_ended stepped ran
          refine ⟨kept.same same rfl rfl trace handed, fun runs => ?_⟩
          dsimp only at runs
          rw [phase, ran] at runs
          cases runs
      | true =>
          refine ⟨?_, fun runs => ?_⟩
          · exact kept.stepped (live ran) moves (apart ran) stepped kept.handed
              fun tk _ => (same tk).owns (List.Subset.refl _) (kept.owns tk)
          · have later : loop.Apart :=
              WorkerLoop.apart_reach (reached.next trivial stepped) runs distinct
            refine (live ran).stepped kept moves (apart ran) later distinct (wired ran) own stepped
              runs ?_ ?_
            · rintro ⟨tk, stage⟩ member was -
              refine (same tk).stageHolds (List.Subset.refl _) (List.Subset.refl _) ?_
                ((live ran).stage was)
              rintro rfl
              exact ((live ran).stage was).2
            · exact fun _ io _ _ _ _ _ _ is => absurd is (other io)
  | thread stepped =>
      have bodied := bodied_reach earlier once
      obtain ⟨gives, handed⟩ :=
        threadStep_gives kept bodied (crewed_reach earlier)
          (fun runs thread job resp sender found stands =>
            unanswered_fresh earlier runs once ((manned runs).responding found stands))
          stepped
      refine ⟨gives.kept kept handed, fun runs => gives.live (live ?_)⟩
      obtain ⟨thread, next, lines, found, -, same⟩ := threadStep_steps stepped
      rw [same] at runs
      exact (sends_phase thread.phase ▸ runs :)

-----------------------------------------------------------------------------------------
-- Where the bytes went
-----------------------------------------------------------------------------------------

/-- An event writes to a stream that was received under its token. -/
theorem write?_received (conserves : self.loop.Conserves bincode)
    {write : Token × TcpStream × Bytes} (writes : self.write? io = some write)
    : (write.1, write.2.1) ∈ total WorkerEffect.came self.loop.trace := by
  have held
      (member : (write.1, write.2.1) ∈ WorkerLoop.mapped self.loop.worker)
      : (write.1, write.2.1) ∈ total WorkerEffect.came self.loop.trace := by
    rw [conserves.streams, Multiset.mem_add, WorkerLoop.holdings, Multiset.mem_add]
    exact .inl (.inr member)
  apply held
  unfold write? at writes
  split at writes
  · next tk next =>
      obtain ⟨⟨tcpStream, writer⟩, found, rfl⟩ := Option.map_eq_some_iff.mp writes
      rw [WorkerLoop.mapped, contents_of_lookup Prod.fst found]
      simp
  · next tk next =>
      obtain ⟨⟨tcpStream, casketResp⟩, found, rfl⟩ := Option.map_eq_some_iff.mp writes
      rw [WorkerLoop.mapped, contents_of_lookup Prod.fst found]
      simp
  · cases writes

/-- No thread writes to a client, by induction on those that end. -/
theorem dieAll_writes (dying : List Nat) : (dying.foldl die self).writes = self.writes := by
  induction dying generalizing self with
  | nil => rfl
  | cons n rest ih => exact ih

theorem sends_writes {n : Nat} {act : ThreadAct} (phase : ThreadPhase)
    : (self.sends n phase act).writes = self.writes := by
  unfold sends
  split
  · split <;> rfl
  · split <;> rfl
  · rfl
  · rfl
  · rfl

/-- In every run each write went to a stream that was received under its token. -/
theorem writes_reach
    (run : Reach (step parser cfg crates bincode) (fun _ _ => True) (.new cfg) self)
    : ∀ write ∈ self.writes,
        (write.1, write.2.1) ∈ total WorkerEffect.came self.loop.trace := by
  refine run.along
    (fun process =>
      ∀ write ∈ process.writes,
        (write.1, write.2.1) ∈ total WorkerEffect.came process.loop.trace)
    (fun _ absent => absurd absent List.not_mem_nil) ?_
  intro before label after earlier known _ taken write member
  have goes := step_goes taken
  obtain ⟨reached, manned⟩ := manned_reach earlier
  have grows := goes.came manned
  cases goes with
  | @event io loop stepped =>
      rw [around, dieAll_writes] at member
      rcases List.mem_append.mp member with was | new
      · exact Multiset.mem_of_le grows (known write was)
      · have conserves :=
          (WorkerLoop.conserved_reach reached (WorkerLoop.event_runs stepped)).2
        exact Multiset.mem_of_le grows (write?_received conserves (Option.mem_toList.mp new))
  | loop => exact Multiset.mem_of_le grows (known write member)
  | thread stepped =>
      obtain ⟨thread, _, _, -, -, rfl⟩ := threadStep_steps stepped
      have was : write ∈ before.writes := sends_writes thread.phase ▸ member
      exact Multiset.mem_of_le grows (known write was)

end WorkerProcess
end Casket
