import Casket.Worker.Exclusive
import Casket.Worker.Ownership
import Casket.Worker.Process

/-! How far each stream in the worker has come, and with what: the data kept for it moves with
it from the buffers to the maps and back. A step adds nothing to a stage but what a result of
its own says.
-/

namespace Casket

open Lib

/-- How far a stream has come, with what the worker keeps for it there. -/
inductive Stage where
  | unread
  | read (httpReq : HttpRequest)
  | pending
  | writing (writer : Writer)
  | written (httpResp : HttpResponse)
  | refusing (casketResp : CasketResponse)
  | refused (casketResp : CasketResponse)
  | leaving

/-- The stage of the stream a result holds. -/
def ActionResult.staged? : ActionResult → Option (Token × Stage)
  | .error e => some (e.token, .leaving)
  | .ok (.newServerRequest tk _) => some (tk, .unread)
  | .ok (.serverContinueRead tk _ _) => some (tk, .unread)
  | .ok (.serverReadDone tk httpReq _) => some (tk, .read httpReq)
  | .ok (.serverStreamEOF tk _) => some (tk, .leaving)
  | .ok (.serverNewResponse _ _) => none
  | .ok (.serverContinueWrite tk writer _) => some (tk, .writing writer)
  | .ok (.serverDoneWrite tk httpResp _) => some (tk, .written httpResp)
  | .ok (.serverCasketResponseNew tk _ casketResp) => some (tk, .refusing casketResp)
  | .ok (.serverCasketResponseContinue tk _ casketResp) => some (tk, .refusing casketResp)
  | .ok (.serverCasketResponseDone tk _ casketResp) => some (tk, .refused casketResp)
  | .ok (.serverPythonCodeTimeoutNew _ _) => none

/-- The stage that a handled result puts its stream in. -/
inductive ActionResult.Puts : ActionResult → Token × Stage → Prop
  | same {res item} (is : ActionResult.staged? res = some item) : Puts res item
  | queued {tk httpReq tcpStream}
    : Puts (.ok (.serverReadDone tk httpReq tcpStream)) (tk, .pending)
  | responding {tk httpResp}
    : Puts (.ok (.serverNewResponse tk httpResp)) (tk, .writing (.new httpResp))

namespace WorkerLoop

/-- The streams that arrive, none of which was read. -/
def arriving (phase : WorkerPhase) : List (Token × Stage) :=
  (phase.eventsBuf.filterMap arrival?).map fun stream => (stream.1, .unread)

/-- Every stream in the worker, by its token and stage. -/
def staged (self : WorkerLoop) : Multiset (Token × Stage) :=
  (arriving self.phase : Multiset (Token × Stage))
  + (self.phase.workerResults.filterMap ActionResult.staged? : List (Token × Stage))
  + contents (fun _ => Stage.unread) self.worker.serverReadingStreams
  + contents (fun _ => Stage.pending) self.worker.serverPendingStreams
  + contents (fun value => Stage.writing value.2) self.worker.serverWritingStreams
  + contents (fun value => Stage.refusing value.2) self.worker.serverCasketResponses

/-- The results a step has pushed. -/
def pushed (before after : WorkerLoop) : List ActionResult :=
  after.phase.workerResults.drop before.phase.workerResults.length

variable {cfg : Config} {crates : Crates} {bincode : Bincode} {self after : WorkerLoop}
  {input : WorkerInput} {item : Token × Stage}

/-- A result has a stage as it holds a stream. -/
theorem staged?_token (res : ActionResult)
    : (ActionResult.staged? res).map Prod.fst = res.held?.map Prod.fst := by
  rcases res with e | act
  · rfl
  · cases act <;> rfl

/-- There is one stage for each stream. -/
theorem map_fst_staged (self : WorkerLoop)
    : self.staged.map Prod.fst = self.holdings.map Prod.fst := by
  have results
      : (self.phase.workerResults.filterMap ActionResult.staged?).map Prod.fst
        = (self.phase.workerResults.filterMap ActionResult.held?).map Prod.fst := by
    rw [List.map_filterMap, List.map_filterMap]
    exact congrArg (self.phase.workerResults.filterMap ·) (funext staged?_token)
  have arrivals
      : (arriving self.phase).map Prod.fst
        = (self.phase.eventsBuf.filterMap arrival?).map Prod.fst := by
    rw [arriving, List.map_map]
    rfl
  rw [staged, holdings, inFlight, mapped]
  simp only [Multiset.map_add, map_fst_contents, Multiset.map_coe, results, arrivals]
  simp only [add_assoc]

/-- So no stream is at two stages while no token is twice. -/
theorem stage_unique (once : (self.holdings.map Prod.fst).Nodup) {tk : Token}
    {stage other : Stage} (here : (tk, stage) ∈ self.staged) (there : (tk, other) ∈ self.staged)
    : stage = other := by
  rw [← map_fst_staged] at once
  exact (Prod.mk.inj (Multiset.inj_on_of_nodup_map once _ here _ there rfl)).2

/-- A stream at some stage is with the worker. -/
theorem held_of_staged {tk : Token} {stage : Stage} (here : (tk, stage) ∈ self.staged)
    : tk ∈ self.holdings.map Prod.fst := by
  rw [← map_fst_staged]
  exact Multiset.mem_map_of_mem Prod.fst here

-----------------------------------------------------------------------------------------
-- Where the stages come from
-----------------------------------------------------------------------------------------

/-- What is put into a map comes to what is there. -/
theorem staged_insertReading (self : WorkerLoop) (tk : Token) (tcpStream : TcpStream)
    (reader : Reader)
    : (self.insertReading tk tcpStream reader).staged ≤ {(tk, .unread)} + self.staged := by
  have more := contents_insert_le (fun _ => Stage.unread) self.worker.serverReadingStreams tk
    (tcpStream, reader)
  rw [staged, staged, insertReading]
  dsimp only [note]
  refine le_of_le_of_eq (add_le_add_left (add_le_add_left (add_le_add_left
    (add_le_add_right more _) _) _) _) ?_
  abel

theorem staged_insertPending (self : WorkerLoop) (tk : Token) (tcpStream : TcpStream)
    : (self.insertPending tk tcpStream).staged ≤ {(tk, .pending)} + self.staged := by
  have more := contents_insert_le (fun _ => Stage.pending) self.worker.serverPendingStreams tk
    tcpStream
  rw [staged, staged, insertPending]
  dsimp only [note]
  refine (add_le_add_left (add_le_add_left (add_le_add_right more _) _) _).trans_eq ?_
  abel

theorem staged_insertWriting (self : WorkerLoop) (tk : Token) (tcpStream : TcpStream)
    (writer : Writer)
    : (self.insertWriting tk tcpStream writer).staged ≤ {(tk, .writing writer)} + self.staged := by
  have more := contents_insert_le (fun value => Stage.writing value.2)
    self.worker.serverWritingStreams tk (tcpStream, writer)
  rw [staged, staged, insertWriting]
  dsimp only [note]
  refine (add_le_add_left (add_le_add_right more _) _).trans_eq ?_
  abel

theorem staged_insertCasket (self : WorkerLoop) (tk : Token) (tcpStream : TcpStream)
    (casketResp : CasketResponse)
    : (self.insertCasket tk tcpStream casketResp).staged
      ≤ {(tk, .refusing casketResp)} + self.staged := by
  have more := contents_insert_le (fun value => Stage.refusing value.2)
    self.worker.serverCasketResponses tk (tcpStream, casketResp)
  rw [staged, staged, insertCasket]
  dsimp only [note]
  refine (add_le_add_right more _).trans_eq ?_
  abel

/-- A step that moves no stream. -/
theorem staged_still (member : item ∈ after.staged)
    (events : after.phase.eventsBuf = self.phase.eventsBuf)
    (results : after.phase.workerResults = self.phase.workerResults)
    (reading : after.worker.serverReadingStreams = self.worker.serverReadingStreams)
    (pending : after.worker.serverPendingStreams = self.worker.serverPendingStreams)
    (writing : after.worker.serverWritingStreams = self.worker.serverWritingStreams)
    (casket : after.worker.serverCasketResponses = self.worker.serverCasketResponses)
    : item ∈ self.staged := by
  rw [staged, arriving, events, results, reading, pending, writing, casket] at member
  exact member

/-- A handled result adds the stage it puts its stream in. -/
theorem Settles.staged {res : ActionResult} {result : Except IoError Unit}
    (settles : self.Settles bincode res result after) (member : item ∈ after.staged)
    : item ∈ self.staged ∨ res.Puts item := by
  have new {stage : Token × Stage} (grows : after.staged ≤ {stage} + self.staged)
      (puts : res.Puts stage)
      : item ∈ self.staged ∨ res.Puts item := by
    rcases Multiset.mem_add.mp (Multiset.mem_of_le grows member) with is | was
    · exact .inr (Multiset.mem_singleton.mp is ▸ puts)
    · exact .inl was
  cases settles with
  | answered | started => exact .inl (staged_still member rfl rfl rfl rfl rfl rfl)
  | lost waits =>
      left
      have fewer := contents_erase_le (fun _ => Stage.pending) waits
      refine Multiset.mem_of_le ?_ member
      exact add_le_add_left (add_le_add_left (add_le_add_right fewer _) _) _
  | accepted => exact new (staged_insertReading _ _ _ _) (.same rfl)
  | reading => exact new (staged_insertReading _ _ _ _) (.same rfl)
  | queued => exact new (staged_insertPending _ _ _) .queued
  | @responding tk httpResp tcpStream waits =>
      refine new ((staged_insertWriting _ _ _ _).trans (add_le_add_right ?_ _)) .responding
      have fewer := contents_erase_le (fun _ => Stage.pending) waits
      exact add_le_add_left (add_le_add_left (add_le_add_right fewer _) _) _
  | writing => exact new (staged_insertWriting _ _ _ _) (.same rfl)
  | casket is =>
      rcases is with rfl | rfl
      · exact new (staged_insertCasket _ _ _ _) (.same rfl)
      · exact new (staged_insertCasket _ _ _ _) (.same rfl)

/-- A response is taken up only where its stream waits. -/
theorem Settles.waits {tk : Token} {httpResp : HttpResponse} {result : Except IoError Unit}
    (settles : self.Settles bincode (.ok (.serverNewResponse tk httpResp)) result after)
    : (tk, .pending) ∈ self.staged := by
  have waiting {tcpStream : TcpStream}
      (waits : self.worker.serverPendingStreams.lookup tk = some tcpStream)
      : (tk, Stage.pending) ∈ self.staged := by
    rw [WorkerLoop.staged, contents_of_lookup (fun _ => Stage.pending) waits]
    simp only [Multiset.mem_add, Multiset.mem_singleton, true_or, or_true]
  cases settles with
  | answered held => cases held
  | lost waits => exact waiting waits
  | responding waits => exact waiting waits
  | casket is => rcases is with is | is <;> cases is

/-- What is pushed comes to what there was. -/
theorem staged_pushed {more : List ActionResult} (member : item ∈ after.staged)
    (collects : self.phase.collects = true)
    (phase : after.phase = self.phase.pushResults more)
    (reading
      : contents (fun _ => Stage.unread) after.worker.serverReadingStreams
        ≤ contents (fun _ => .unread) self.worker.serverReadingStreams)
    (pending
      : contents (fun _ => Stage.pending) after.worker.serverPendingStreams
        ≤ contents (fun _ => .pending) self.worker.serverPendingStreams)
    (writing
      : contents (fun value => Stage.writing value.2) after.worker.serverWritingStreams
        ≤ contents (fun value => .writing value.2) self.worker.serverWritingStreams)
    (casket
      : contents (fun value => Stage.refusing value.2) after.worker.serverCasketResponses
        ≤ contents (fun value => .refusing value.2) self.worker.serverCasketResponses)
    : item ∈ self.staged ∨ item ∈ (self.pushed after).filterMap ActionResult.staged? := by
  have grows : self.pushed after = more := by
    rw [pushed, phase, WorkerPhase.workerResults_pushResults collects, List.drop_left]
  have whole
      : after.staged
        ≤ (more.filterMap ActionResult.staged? : List (Token × Stage)) + self.staged := by
    rw [staged, staged, arriving, phase, WorkerPhase.eventsBuf_pushResults,
      WorkerPhase.workerResults_pushResults collects, List.filterMap_append, ← Multiset.coe_add]
    refine le_of_le_of_eq
      (add_le_add (add_le_add (add_le_add (add_le_add_right reading _) pending) writing)
        casket) ?_
    rw [arriving]
    abel
  rw [grows]
  exact (Multiset.mem_add.mp (Multiset.mem_of_le whole member)).symm

/-- An event adds the stages of what it pushes. -/
theorem Delivers.staged {tk : Token} {ev : Event}
    (delivers : self.Delivers cfg bincode tk ev after) (collects : self.phase.collects = true)
    (member : item ∈ after.staged)
    : item ∈ self.staged ∨ item ∈ (self.pushed after).filterMap ActionResult.staged? := by
  cases delivers with
  | ctrlC | unixStreamRead | unixStreamWrite | queuedRequests =>
      exact .inl (staged_still member rfl rfl rfl rfl rfl rfl)
  | requestReadTimeout | pythonCodeTimeout =>
      exact .inl (staged_still member (WorkerPhase.eventsBuf_pushTimeout _ _ _)
        (WorkerPhase.workerResults_pushTimeout _ _ _) rfl rfl rfl rfl)
  | refused | newStreamFd | pollPythonResponses =>
      exact staged_pushed member collects rfl le_rfl le_rfl le_rfl le_rfl
  | serverStreamRead found =>
      exact staged_pushed member collects rfl (contents_erase_le _ found) le_rfl le_rfl le_rfl
  | serverStreamWrite found =>
      exact staged_pushed member collects rfl le_rfl le_rfl (contents_erase_le _ found) le_rfl
  | casketResponseWrite found =>
      exact staged_pushed member collects rfl le_rfl le_rfl le_rfl (contents_erase_le _ found)

/-- A casket response of which nothing was sent. -/
def Refusal (casketResp : CasketResponse) : Prop :=
  casketResp.response ∈ [http408Response, http503Response, http504Response]
  ∧ casketResp.bytesSent = 0

/-- A timeout refuses a stream that was not read or waits. -/
theorem Expires.staged {tk : Token} {timeout : Timeout}
    (expires : self.Expires tk timeout after) (collects : self.phase.collects = true)
    (member : item ∈ after.staged)
    : item ∈ self.staged
      ∨ ((item.1, .unread) ∈ self.staged ∨ (item.1, .pending) ∈ self.staged)
        ∧ ∃ casketResp, item.2 = .refusing casketResp ∧ Refusal casketResp := by
  cases expires with
  | stale => exact .inl member
  | requestRead found =>
      have less := contents_erase_le (fun _ => Stage.unread) found
      have there := staged_pushed member collects rfl less le_rfl le_rfl le_rfl
      refine there.imp_right ?_
      rw [pushed]
      dsimp only [pushResults]
      rw [WorkerPhase.workerResults_pushResults collects, List.drop_left]
      intro new
      obtain rfl := List.mem_singleton.mp new
      refine ⟨.inl ?_, _, rfl, by simp, rfl⟩
      rw [WorkerLoop.staged, contents_of_lookup (fun _ => Stage.unread) found]
      simp only [Multiset.mem_add, Multiset.mem_singleton, true_or, or_true]
  | pythonCode found =>
      have less := contents_erase_le (fun _ => Stage.pending) found
      have there := staged_pushed member collects rfl le_rfl less le_rfl le_rfl
      refine there.imp_right ?_
      rw [pushed]
      dsimp only [pushResults, note]
      rw [WorkerPhase.workerResults_pushResults collects, List.drop_left]
      intro new
      obtain rfl := List.mem_singleton.mp new
      refine ⟨.inr ?_, _, rfl, by simp, rfl⟩
      rw [WorkerLoop.staged, contents_of_lookup (fun _ => Stage.pending) found]
      simp only [Multiset.mem_add, Multiset.mem_singleton, true_or, or_true]

-----------------------------------------------------------------------------------------
-- What an event pushes
-----------------------------------------------------------------------------------------

/-- What an event pushes, and what it found. -/
inductive EventPushes (self : WorkerLoop) (io : WorkerEventIo) (tk : Token)
    : Event → ActionResult → Prop
  | refused {fd} : EventPushes self io tk (.newStreamFd fd) (.ok (new503ServiceBusy tk ⟨fd⟩))
  | accepted {fd} : EventPushes self io tk (.newStreamFd fd) (.ok (.newServerRequest tk ⟨fd⟩))
  | read {tcpStream reader res}
    (found : self.worker.serverReadingStreams.lookup tk = some (tcpStream, reader))
    (gives : ReadResult tk tcpStream res)
    : EventPushes self io tk .serverStreamRead res
  | started {start} : EventPushes self io tk .pollPythonResponses (PythonThreads.newTimeout start)
  | responded {response} (sent : response ∈ self.pool.responses)
    : EventPushes self io tk .pollPythonResponses (PythonThreads.newResponse response)
  | wrote {tcpStream writer res}
    (found : self.worker.serverWritingStreams.lookup tk = some (tcpStream, writer))
    (within
      : io.write.toOption.getD 0 ≤ (writer.overBody io.body).takeChunk.buffer.length)
    (event : eventServerStreamWrite tk tcpStream (writer.overBody io.body) io.write = .ok res)
    : EventPushes self io tk .serverStreamWrite res
  | casket {tcpStream casketResp res}
    (found : self.worker.serverCasketResponses.lookup tk = some (tcpStream, casketResp))
    (within
      : io.write.toOption.getD 0 ≤ casketResp.response.length - casketResp.bytesSent)
    (event : eventCasketResponseWrite tk tcpStream casketResp io.write = .ok res)
    : EventPushes self io tk .casketResponseWrite res

/-- Every event pushes that, one case for each. -/
theorem handleEvent_pushes {io : WorkerEventIo} {tk : Token} {ev : Event}
    (taken : self.handleEvent cfg crates bincode tk ev io = some after)
    (runs : after.phase.running = true) (collects : self.phase.collects = true)
    : ∃ more,
        after.phase.workerResults = self.phase.workerResults ++ more
        ∧ ∀ res ∈ more, self.EventPushes io tk ev res := by
  have one {next : WorkerLoop} {res : ActionResult} (phase : next.phase = self.phase)
      (pushes : self.EventPushes io tk ev res)
      : ∃ more,
          (next.pushResults [res]).phase.workerResults = self.phase.workerResults ++ more
          ∧ ∀ res ∈ more, self.EventPushes io tk ev res := by
    refine ⟨[res], ?_, fun other member => List.mem_singleton.mp member ▸ pushes⟩
    rw [pushResults, phase, WorkerPhase.workerResults_pushResults collects]
  have none_ (phase : after.phase.workerResults = self.phase.workerResults)
      : ∃ more,
          after.phase.workerResults = self.phase.workerResults ++ more
          ∧ ∀ res ∈ more, self.EventPushes io tk ev res :=
    ⟨[], by rw [phase, List.append_nil], fun _ absent => by cases absent⟩
  have delivers := handleEvent_delivers taken runs
  cases ev with
  | ctrlC | unixStreamRead | unixStreamWrite | queuedRequests =>
      cases delivers
      exact none_ rfl
  | requestReadTimeout | pythonCodeTimeout =>
      cases delivers
      exact none_ (WorkerPhase.workerResults_pushTimeout _ _ _)
  | newStreamFd fd =>
      cases delivers with
      | refused => exact one rfl .refused
      | newStreamFd => exact one rfl .accepted
  | serverStreamRead =>
      cases delivers with
      | serverStreamRead found gives => exact one rfl (.read found gives)
  | pollPythonResponses =>
      cases delivers with
      | pollPythonResponses took =>
          obtain ⟨delivered, rfl, sub, -⟩ := PythonThreads.takeResponses_spec took
          refine ⟨_, WorkerPhase.workerResults_pushResults collects _, ?_⟩
          intro res member
          rcases List.mem_append.mp member with start | response
          · obtain ⟨start, -, rfl⟩ := List.mem_map.mp start
            exact .started
          · obtain ⟨response, there, rfl⟩ := List.mem_map.mp response
            exact .responded (List.mem_of_mem_take (sub.subset there))
  | serverStreamWrite =>
      simp only [handleEvent, serverStreamWrite] at taken
      split at taken
      · obtain rfl := Option.some.inj taken
        cases runs
      · next found =>
          split at taken
          · next within =>
              split at taken
              · obtain rfl := Option.some.inj taken
                cases runs
              · next event =>
                  obtain rfl := Option.some.inj taken
                  exact one rfl (.wrote found within event)
          · cases taken
  | casketResponseWrite =>
      simp only [handleEvent, casketResponseWrite] at taken
      split at taken
      · obtain rfl := Option.some.inj taken
        cases runs
      · next found =>
          split at taken
          · next within =>
              split at taken
              · obtain rfl := Option.some.inj taken
                cases runs
              · next event =>
                  obtain rfl := Option.some.inj taken
                  exact one rfl (.casket found within event)
          · cases taken

-----------------------------------------------------------------------------------------
-- Every step
-----------------------------------------------------------------------------------------

/-- How a stream comes to a stage in a step. -/
inductive Stems (self after : WorkerLoop) : WorkerInput → Token × Stage → Prop
  | stays {input : WorkerInput} {item : Token × Stage} (was : item ∈ self.staged)
    : Stems self after input item
  | arrives {input : WorkerInput} {tk : Token} {streams : List (Token × RawFd)}
    (trace : after.trace = self.trace ++ streams.map streamReceived)
    (new : tk ∈ streams.map Prod.fst)
    : Stems self after input (tk, .unread)
  | queued {input : WorkerInput} {tk httpReq} (was : (tk, .read httpReq) ∈ self.staged)
    : Stems self after input (tk, .pending)
  | responding {input : WorkerInput} {tk httpResp} (waits : (tk, .pending) ∈ self.staged)
    (handled : .ok (.serverNewResponse tk httpResp) ∈ self.phase.workerResults)
    : Stems self after input (tk, .writing (.new httpResp))
  | refuses {input : WorkerInput} {tk casketResp}
    (was : (tk, .unread) ∈ self.staged ∨ (tk, .pending) ∈ self.staged)
    (refusal : Refusal casketResp)
    : Stems self after input (tk, .refusing casketResp)
  | pushes {io tk ev evs tmos results res} {item : Token × Stage}
    (stands : self.phase = .events ((tk, ev) :: evs) tmos results)
    (pushes : self.EventPushes io tk ev res) (pushed : res ∈ self.pushed after)
    (is : ActionResult.staged? res = some item)
    : Stems self after (.event io) item

/-- A result that waits has its stage. -/
theorem mem_staged_result {res : ActionResult} (waits : res ∈ self.phase.workerResults)
    (is : ActionResult.staged? res = some item)
    : item ∈ self.staged := by
  have there : item ∈ self.phase.workerResults.filterMap ActionResult.staged? :=
    List.mem_filterMap.mpr ⟨res, waits, is⟩
  rw [staged]
  simp only [Multiset.mem_add, Multiset.mem_coe]
  exact .inl (.inl (.inl (.inl (.inr there))))

/-- So has a stream that arrives. -/
theorem mem_staged_arrival {tk : Token} {fd : RawFd}
    (waits : (tk, .newStreamFd fd) ∈ self.phase.eventsBuf)
    : (tk, .unread) ∈ self.staged := by
  have there : (tk, Stage.unread) ∈ arriving self.phase :=
    List.mem_map.mpr ⟨(tk, ⟨fd⟩), List.mem_filterMap.mpr ⟨_, waits, rfl⟩, rfl⟩
  rw [staged]
  simp only [Multiset.mem_add, Multiset.mem_coe]
  exact .inl (.inl (.inl (.inl (.inl there))))

/-- A result that is popped had its stage before. -/
theorem mem_staged_popped {res : ActionResult} {phase : WorkerPhase}
    (popped : self.phase.nextResult = some (res, phase))
    (member : item ∈ { self with phase }.staged)
    : item ∈ self.staged := by
  obtain ⟨results, -, before, none, -⟩ := WorkerPhase.nextResult_spec popped
  refine Multiset.mem_of_le ?_ member
  rw [staged, staged, arriving, arriving, before, none, results]
  refine add_le_add_left (add_le_add_left (add_le_add_left (add_le_add_left
    (add_le_add_right ?_ _) _) _) _) _
  exact Multiset.coe_le.mpr ((List.sublist_cons_self res _).filterMap _).subperm

/-- The pushed results of a step of an event. -/
theorem step_pushes {io : WorkerEventIo} {tk : Token} {ev : Event}
    {evs : List (Token × Event)} {tmos : List (Token × Timeout)} {results : List ActionResult}
    (stands : self.phase = .events ((tk, ev) :: evs) tmos results)
    (taken : self.step cfg crates bincode (.event io) = some after)
    (runs : after.phase.running = true)
    : after.phase.workerResults = self.phase.workerResults ++ self.pushed after
      ∧ ∀ res ∈ self.pushed after, self.EventPushes io tk ev res := by
  simp only [step, stands] at taken
  obtain ⟨more, phase, pushes⟩ := handleEvent_pushes taken runs rfl
  have same : self.pushed after = more := by
    rw [pushed, phase, stands]
    exact List.drop_left
  rw [same, phase, stands]
  refine ⟨rfl, fun res member => ?_⟩
  cases pushes res member with
  | refused => exact .refused
  | accepted => exact .accepted
  | read found gives => exact .read found gives
  | started => exact .started
  | responded sent => exact .responded sent
  | wrote found within event => exact .wrote found within event
  | casket found within event => exact .casket found within event

/-- The streams of a loop top come to the others. -/
theorem loopTop_stems (goes : self.finished = false)
    (member : item ∈ self.loopTop.staged)
    : self.Stems self.loopTop input item := by
  rw [loopTop_goes goes rfl] at member ⊢
  generalize takeStreamFds self.worker.msgBuf.streamFds.length self.worker.msgBuf = taken at *
  obtain ⟨streams, msgBuf⟩ := taken
  rw [staged] at member
  simp only [arriving, note, WorkerPhase.eventsBuf, WorkerPhase.workerResults,
    List.filterMap_nil, arrivals_top, Multiset.mem_add, Multiset.mem_coe] at member
  rcases member with ((((new | none) | reading) | pending) | writing) | casket
  · obtain ⟨stream, there, rfl⟩ := List.mem_map.mp new
    obtain ⟨first, within, rfl⟩ := List.mem_map.mp there
    exact .arrives rfl (List.mem_map_of_mem within)
  · cases none
  · refine .stays ?_
    rw [staged]
    simp only [Multiset.mem_add]
    exact .inl (.inl (.inl (.inr reading)))
  · refine .stays ?_
    rw [staged]
    simp only [Multiset.mem_add]
    exact .inl (.inl (.inr pending))
  · refine .stays ?_
    rw [staged]
    simp only [Multiset.mem_add]
    exact .inl (.inr writing)
  · refine .stays ?_
    rw [staged]
    simp only [Multiset.mem_add]
    exact .inr casket

/-- Every step brings streams to their stages in one of these ways. -/
theorem step_stems (taken : self.step cfg crates bincode input = some after)
    (runs : after.phase.running = true) (wired : self.worker.poll.Wired)
    (member : item ∈ after.staged)
    : self.Stems after input item := by
  have takes := step_takes taken runs
  cases takes with
  | top stands goes => exact loopTop_stems goes member
  | @tick events delivered now popped polled poll stands pops ticked =>
      refine .stays ?_
      have arrivals := tick_arrivals wired pops ticked
      rw [staged] at member ⊢
      rw [stands]
      refine Multiset.mem_of_le (le_of_eq ?_) member
      have same
          : (arriving (.events delivered [] []) : Multiset (Token × Stage))
            = (arriving (.ticking events) : List (Token × Stage)) :=
        Multiset.coe_eq_coe.mpr (arrivals.map _)
      rw [same]
      rfl
  | @event tk ev evs tmos results io _ stands delivers =>
      have found := (step_pushes stands taken runs).2
      rcases delivers.staged rfl member with was | new
      · refine .stays ?_
        refine Multiset.mem_of_le ?_ was
        rw [staged, staged, arriving, arriving, stands]
        refine add_le_add_left (add_le_add_left (add_le_add_left (add_le_add_left
          (add_le_add_left ?_ _) _) _) _) _
        exact Multiset.coe_le.mpr (((List.sublist_cons_self _ evs).filterMap _).map _).subperm
      · have same : { self with phase := .events evs tmos results }.pushed after
            = self.pushed after := by
          rw [pushed, pushed, stands]
          rfl
        rw [same] at new
        obtain ⟨res, pushed, is⟩ := List.mem_filterMap.mp new
        exact .pushes stands (found res pushed) pushed is
  | @timeout tk timeout tmos results result after stands expires =>
      have before {item : Token × Stage}
          (was : item ∈ { self with phase := .timeouts tmos results }.staged)
          : item ∈ self.staged := by
        refine staged_still was ?_ ?_ rfl rfl rfl rfl
        · rw [stands]
          rfl
        · rw [stands]
          rfl
      rcases expires.staged rfl member with was | ⟨was, casketResp, is, refusal⟩
      · exact .stays (before was)
      · obtain ⟨tk, stage⟩ := item
        obtain rfl : stage = .refusing casketResp := is
        exact .refuses (was.imp before before) refusal
  | @result res phase result now _ popped settles =>
      obtain ⟨results, -⟩ := WorkerPhase.nextResult_spec popped
      have waits : res ∈ self.phase.workerResults := results ▸ List.mem_cons_self
      rcases settles.staged member with was | puts
      · exact .stays (mem_staged_popped popped was)
      · cases puts with
        | same is => exact .stays (mem_staged_result waits is)
        | queued => exact .queued (mem_staged_result waits rfl)
        | responding => exact .responding (mem_staged_popped popped settles.waits) waits
  | delivered stands | acted stands | expired stands | settled stands | reregistered stands =>
      exact .stays (staged_still member (stands ▸ rfl) (stands ▸ rfl) rfl rfl rfl rfl)
  | socket | codeStart | respond | threadDies =>
      exact .stays (staged_still member rfl rfl rfl rfl rfl rfl)

-----------------------------------------------------------------------------------------
-- Responses, queued requests and answers
-----------------------------------------------------------------------------------------

/-- What an event pushes is no response, unless one was sent. -/
theorem EventPushes.response {io : WorkerEventIo} {tk other : Token} {ev : Event}
    {httpResp : HttpResponse}
    (pushes : self.EventPushes io tk ev (.ok (.serverNewResponse other httpResp)))
    : (other, httpResp) ∈ self.pool.responses := by
  generalize is : (.ok (.serverNewResponse other httpResp) : ActionResult) = res at pushes
  cases pushes with
  | refused | accepted | started => cases is
  | read found gives => cases gives <;> cases is
  | responded sent =>
      obtain ⟨rfl, rfl⟩ := Action.serverNewResponse.inj (Except.ok.inj is)
      exact sent
  | wrote found within event =>
      cases eventServerStreamWrite_gives event <;> cases is
  | casket found within event =>
      cases eventCasketResponseWrite_gives event <;> cases is

/-- A response that is to be handled was, or was in its channel. -/
theorem step_responses (taken : self.step cfg crates bincode input = some after)
    (runs : after.phase.running = true) {tk : Token} {httpResp : HttpResponse}
    (waits : .ok (.serverNewResponse tk httpResp) ∈ after.phase.workerResults)
    : .ok (.serverNewResponse tk httpResp) ∈ self.phase.workerResults
      ∨ (tk, httpResp) ∈ self.pool.responses := by
  cases step_takes taken runs with
  | top stands goes =>
      rw [loopTop_goes goes rfl] at waits
      cases waits
  | tick | acted | settled | reregistered => cases waits
  | @event tk ev evs tmos results io _ stands delivers =>
      obtain ⟨results, pushes⟩ := step_pushes stands taken runs
      rw [results] at waits
      exact (List.mem_append.mp waits).imp_right fun new => (pushes _ new).response
  | timeout stands expires =>
      left
      rw [stands]
      cases expires with
      | stale => exact waits
      | requestRead | pythonCode =>
          rcases List.mem_append.mp waits with was | new
          · exact was
          · cases List.mem_singleton.mp new
  | result popped settles =>
      left
      obtain ⟨results, -⟩ := WorkerPhase.nextResult_spec popped
      rw [settles.phase] at waits
      exact results ▸ List.mem_cons_of_mem _ waits
  | delivered stands | expired stands => exact .inl (stands ▸ waits)
  | socket | codeStart | respond | threadDies => exact .inl waits

/-- Responses in the channel were there, or a thread sent them. -/
theorem step_channel (taken : self.step cfg crates bincode input = some after)
    (runs : after.phase.running = true) (own : input.ofThread = false)
    {response : Token × HttpResponse} (waits : response ∈ after.pool.responses)
    : response ∈ self.pool.responses := by
  cases step_takes taken runs with
  | top stands goes =>
      rw [loopTop_goes goes rfl] at waits
      exact waits
  | event stands delivers =>
      cases delivers with
      | queuedRequests sent =>
          obtain ⟨handed, rfl, -⟩ := PythonThreads.sendQueuedRequests_spec sent
          exact waits
      | pollPythonResponses took =>
          obtain ⟨-, -, -, -, -, -, rfl, -⟩ := PythonThreads.takeResponses_spec took
          exact List.mem_of_mem_drop waits
      | _ => exact waits
  | timeout stands expires => cases expires <;> exact waits
  | result popped settles => cases settles <;> exact waits
  | codeStart | respond | threadDies => cases own
  | _ => exact waits

/-- A request that waits to be sent did, or was just read. -/
theorem step_queue (taken : self.step cfg crates bincode input = some after)
    (runs : after.phase.running = true) {request : Token × HttpRequest}
    (waits : request ∈ after.worker.pythonThreads.queuedReqs)
    : request ∈ self.worker.pythonThreads.queuedReqs
      ∨ (request.1, .read request.2) ∈ self.staged := by
  cases step_takes taken runs with
  | top stands goes =>
      rw [loopTop_goes goes rfl] at waits
      exact .inl waits
  | event stands delivers =>
      left
      cases delivers with
      | queuedRequests sent =>
          obtain ⟨-, -, -, -, none, -⟩ := PythonThreads.sendQueuedRequests_spec sent
          exact absurd (none ▸ waits :) List.not_mem_nil
      | pollPythonResponses took =>
          obtain ⟨-, -, -, -, -, same, -⟩ := PythonThreads.takeResponses_spec took
          exact (same ▸ waits :)
      | _ => exact waits
  | timeout stands expires => cases expires <;> exact .inl waits
  | result popped settles =>
      cases settles with
      | queued =>
          refine (List.mem_append.mp waits).imp_right fun new => ?_
          obtain rfl := List.mem_singleton.mp new
          obtain ⟨results, -⟩ := WorkerPhase.nextResult_spec popped
          exact mem_staged_result (results ▸ List.mem_cons_self) rfl
      | _ => exact .inl waits
  | _ => exact .inl waits

/-- Where an effect comes from: an answer from the stage its ending says, and a request that is
sent from the queue.
-/
def Notes (self : WorkerLoop) (input : WorkerInput) : WorkerEffect → Prop
  | .answered ending response =>
      (ending = .doneWrite → ∃ httpResp, (response.token, .written httpResp) ∈ self.staged)
      ∧ (ending = .casketResponse →
        ∃ casketResp, (response.token, .refused casketResp) ∈ self.staged)
  | .sent _ =>
      ∃ io tk, input = .event io ∧ self.phase.nextEvent? = some (tk, .queuedRequests)
  | _ => True

/-- The effects of a step come from where they should. -/
def NotesOnly (before : WorkerLoop) (input : WorkerInput) (after : WorkerLoop) : Prop :=
  ∃ effects,
    after.trace = before.trace ++ effects ∧ ∀ effect ∈ effects, before.Notes input effect

theorem notesOnly_same (trace : after.trace = self.trace) : self.NotesOnly input after :=
  ⟨[], trace.trans (List.append_nil _).symm, nofun⟩

theorem notesOnly_one {effect : WorkerEffect} (trace : after.trace = self.trace ++ [effect])
    (notes : self.Notes input effect)
    : self.NotesOnly input after :=
  ⟨[effect], trace, fun _ member => List.mem_singleton.mp member ▸ notes⟩

theorem notesOnly_replacing {tk : Token} {replaced : Option TcpStream}
    (trace : after.trace = self.trace ++ replacing tk replaced)
    : self.NotesOnly input after := by
  cases replaced with
  | none => exact notesOnly_same (trace.trans (List.append_nil _))
  | some tcpStream => exact notesOnly_one trace trivial

/-- The answer among the effects of a stream's end. -/
theorem answered_ends {res : ActionResult} {result : Except IoError Unit}
    {lines : List WorkerEffect} {told ending : Ending} {gone : WorkerEffect}
    {said response : Response} (ends : res.Ends result lines told gone)
    (answered : .answered ending response ∈ lines ++ [WorkerEffect.answered told said, gone])
    : ending = told ∧ response = said := by
  cases ends <;>
    simpa only [List.nil_append, List.cons_append, List.mem_cons, List.not_mem_nil, or_false,
      reduceCtorEq, false_or, WorkerEffect.answered.injEq] using answered

/-- A handled result answers for its own stream. -/
theorem Settles.notes {res : ActionResult} {result : Except IoError Unit}
    {before : WorkerLoop} (settles : self.Settles bincode res result after)
    (trace : self.trace = before.trace)
    (stages : ∀ item, ActionResult.staged? res = some item → item ∈ before.staged)
    : before.NotesOnly input after := by
  cases settles with
  | answered held ends gives forgets responded =>
      obtain ⟨-, token, -⟩ := respond_inv responded
      refine ⟨_, congrArg (· ++ _) trace, fun effect member => ?_⟩
      cases effect with
      | answered ending response =>
          obtain ⟨rfl, rfl⟩ := answered_ends ends member
          refine ⟨?_, ?_⟩
          · rintro rfl
            cases ends with
            | doneWrite =>
                obtain ⟨rfl, -⟩ := Prod.mk.inj (Option.some.inj held)
                exact ⟨_, stages _ (by rw [token]; rfl)⟩
            | error told => rcases told with ⟨is, -⟩ | ⟨-, is | is⟩ <;> cases is
          · rintro rfl
            cases ends with
            | casketDone =>
                obtain ⟨rfl, -⟩ := Prod.mk.inj (Option.some.inj held)
                exact ⟨_, stages _ (by rw [token]; rfl)⟩
            | error told => rcases told with ⟨is, -⟩ | ⟨-, is | is⟩ <;> cases is
      | sent => cases ends <;> simp at member
      | _ => trivial
  | lost =>
      refine ⟨_, congrArg (· ++ _) trace, fun effect member => ?_⟩
      rcases List.mem_cons.mp member with rfl | is
      · exact ⟨nofun, nofun⟩
      · rw [List.mem_singleton.mp is]
        trivial
  | started => exact notesOnly_same trace
  | accepted | reading | queued | responding | writing | casket =>
      exact notesOnly_replacing (congrArg (· ++ _) trace)

/-- An event answers nothing, and only the queue sends. -/
theorem Delivers.notes {before : WorkerLoop} {tk : Token} {ev : Event}
    (delivers : self.Delivers cfg bincode tk ev after)
    (next : before.phase.nextEvent? = some (tk, ev)) (trace : self.trace = before.trace)
    (io : WorkerEventIo)
    : before.NotesOnly (.event io) after := by
  cases delivers with
  | ctrlC | refused | newStreamFd | requestReadTimeout | pythonCodeTimeout =>
      exact notesOnly_same trace
  | unixStreamRead | unixStreamWrite | serverStreamRead | serverStreamWrite
  | casketResponseWrite =>
      exact notesOnly_one (congrArg (· ++ _) trace) trivial
  | queuedRequests =>
      refine ⟨_, congrArg (· ++ _) trace, fun effect member => ?_⟩
      obtain ⟨tk, -, rfl⟩ := List.mem_map.mp member
      exact ⟨io, _, rfl, next⟩
  | pollPythonResponses =>
      refine ⟨_, congrArg (· ++ _) trace, fun effect member => ?_⟩
      rcases List.mem_append.mp member with taken | delivered
      · obtain ⟨tk, -, rfl⟩ := List.mem_map.mp taken
        trivial
      · obtain ⟨tk, -, rfl⟩ := List.mem_map.mp delivered
        trivial

/-- Every step notes only such effects. -/
theorem step_notes (taken : self.step cfg crates bincode input = some after)
    : self.NotesOnly input after := by
  cases runs : self.phase.running with
  | false => exact notesOnly_same (step_ended taken runs).2.2
  | true =>
      cases still : after.phase.running with
      | false =>
          obtain ⟨-, leaves⟩ := step_stops taken runs still
          obtain ⟨effects, trace, passes⟩ := leaves.trace
          refine ⟨effects, trace, fun effect member => ?_⟩
          have passed := passes effect member
          cases effect with
          | answered | sent => exact passed.elim
          | _ => trivial
      | true =>
          cases step_takes taken still with
          | top stands goes =>
              refine ⟨_, congrArg WorkerLoop.trace (loopTop_goes goes rfl), ?_⟩
              intro effect member
              obtain ⟨stream, -, rfl⟩ := List.mem_map.mp member
              trivial
          | @event tk ev evs tmos results io _ stands delivers =>
              have next : self.phase.nextEvent? = some (tk, ev) := by rw [stands]; rfl
              exact delivers.notes next rfl io
          | timeout stands expires =>
              cases expires with
              | stale | requestRead => exact notesOnly_same rfl
              | pythonCode => exact notesOnly_one rfl trivial
          | result popped settles =>
              obtain ⟨results, -⟩ := WorkerPhase.nextResult_spec popped
              exact settles.notes rfl fun _ is =>
                mem_staged_result (results ▸ List.mem_cons_self) is
          | _ => exact notesOnly_same rfl

end WorkerLoop
end Casket
