import Casket.Worker.Loop
import Casket.Lib.Contents
import Casket.Lib.Runs

/-! What a step of the worker can do: one rule for each way the loop goes on, with the
results of one stream's events and the ends of a request grouped by what becomes of the
stream.
-/

namespace Casket

open Lib

-----------------------------------------------------------------------------------------
-- The buffers of a phase
-----------------------------------------------------------------------------------------

namespace WorkerPhase

/-- The loop has not ended. -/
def running : WorkerPhase → Bool
  | .returned _ => false
  | .panicked _ => false
  | _ => true

/-- The loop is at its top. -/
def isTop : WorkerPhase → Bool
  | .top => true
  | _ => false

theorem eq_top {phase : WorkerPhase} (stands : phase.isTop = true) : phase = .top := by
  cases phase <;> first | rfl | cases stands

/-- The loop has returned after the signal. -/
def returnsOk : WorkerPhase → Bool
  | .returned (.ok ()) => true
  | _ => false

theorem eq_returned {phase : WorkerPhase} (exited : phase.returnsOk = true)
    : phase = .returned (.ok ()) := by
  unfold returnsOk at exited
  split at exited
  · rfl
  · cases exited

/-- `events_buf`. -/
def eventsBuf : WorkerPhase → List (Token × Event)
  | .ticking evs => evs
  | .events evs _ _ => evs
  | _ => []

/-- `events_timeout_buf`. -/
def eventsTimeoutBuf : WorkerPhase → List (Token × Timeout)
  | .events _ tmos _ => tmos
  | .actions _ tmos => tmos
  | .timeouts tmos _ => tmos
  | _ => []

/-- `worker_results`. -/
def workerResults : WorkerPhase → List ActionResult
  | .events _ _ results => results
  | .actions results _ => results
  | .timeouts _ results => results
  | .timeoutActions results => results
  | _ => []

/-- Results can be pushed. -/
def collects : WorkerPhase → Bool
  | .events _ _ _ => true
  | .timeouts _ _ => true
  | _ => false

theorem workerResults_pushResults {phase : WorkerPhase} (collects : phase.collects = true)
    (more : List ActionResult)
    : (phase.pushResults more).workerResults = phase.workerResults ++ more := by
  cases phase <;> first | rfl | cases collects

@[simp]
theorem eventsBuf_pushResults (phase : WorkerPhase) (more : List ActionResult)
    : (phase.pushResults more).eventsBuf = phase.eventsBuf := by
  cases phase <;> rfl

@[simp]
theorem eventsTimeoutBuf_pushResults (phase : WorkerPhase) (more : List ActionResult)
    : (phase.pushResults more).eventsTimeoutBuf = phase.eventsTimeoutBuf := by
  cases phase <;> rfl

@[simp]
theorem eventsBuf_pushTimeout (phase : WorkerPhase) (tk : Token) (timeout : Timeout)
    : (phase.pushTimeout tk timeout).eventsBuf = phase.eventsBuf := by
  cases phase <;> rfl

@[simp]
theorem workerResults_pushTimeout (phase : WorkerPhase) (tk : Token) (timeout : Timeout)
    : (phase.pushTimeout tk timeout).workerResults = phase.workerResults := by
  cases phase <;> rfl

/-- A drained result was the first; nothing else changes, and no event waits. -/
theorem nextResult_spec {phase rest : WorkerPhase} {res : ActionResult}
    (popped : phase.nextResult = some (res, rest))
    : phase.workerResults = res :: rest.workerResults
      ∧ rest.eventsTimeoutBuf = phase.eventsTimeoutBuf
      ∧ phase.eventsBuf = [] ∧ rest.eventsBuf = [] ∧ rest.running = true := by
  cases phase with
  | actions results tmos =>
      cases results with
      | nil => cases popped
      | cons head results =>
          obtain ⟨rfl, rfl⟩ := Prod.mk.inj (Option.some.inj popped)
          exact ⟨rfl, rfl, rfl, rfl, rfl⟩
  | timeoutActions results =>
      cases results with
      | nil => cases popped
      | cons head results =>
          obtain ⟨rfl, rfl⟩ := Prod.mk.inj (Option.some.inj popped)
          exact ⟨rfl, rfl, rfl, rfl, rfl⟩
  | _ => cases popped

end WorkerPhase

-----------------------------------------------------------------------------------------
-- One result
-----------------------------------------------------------------------------------------

/-- The stream an action or an error holds, with its token. A new response is for a stream
that still waits in its map.
-/
def ActionResult.held? : ActionResult → Option (Token × TcpStream)
  | .error e => some (e.token, e.tcpStream)
  | .ok (.newServerRequest tk tcpStream) => some (tk, tcpStream)
  | .ok (.serverContinueRead tk _ tcpStream) => some (tk, tcpStream)
  | .ok (.serverReadDone tk _ tcpStream) => some (tk, tcpStream)
  | .ok (.serverStreamEOF tk tcpStream) => some (tk, tcpStream)
  | .ok (.serverNewResponse _ _) => none
  | .ok (.serverContinueWrite tk _ tcpStream) => some (tk, tcpStream)
  | .ok (.serverDoneWrite tk _ tcpStream) => some (tk, tcpStream)
  | .ok (.serverCasketResponseNew tk tcpStream _) => some (tk, tcpStream)
  | .ok (.serverCasketResponseContinue tk tcpStream _) => some (tk, tcpStream)
  | .ok (.serverCasketResponseDone tk tcpStream _) => some (tk, tcpStream)
  | .ok (.serverPythonCodeTimeoutNew _ _) => none

/-- What the poller keeps when a stream is given up: at most the event of a failed call is
left behind.
-/
structure Poller.Forgets (before after : Poller) (tk : Token) : Prop where
  gone : after.registry.lookup tk = none
  others
    : ∀ {other}, other ≠ tk → after.registry.lookup other = before.registry.lookup other
  read
    : after.eventsRegRead = before.eventsRegRead
      ∨ after.eventsRegRead = before.eventsRegRead.insert tk .serverStreamRead
  write
    : after.eventsRegWrite = before.eventsRegWrite
      ∨ after.eventsRegWrite = before.eventsRegWrite.insert tk .serverStreamWrite
      ∨ after.eventsRegWrite = before.eventsRegWrite.insert tk .casketResponseWrite
  timerq : after.timerq = before.timerq

/-- Nothing is logged for a result before its registry call. -/
def ActionResult.silent : ActionResult → Bool
  | .error _ => false
  | .ok (.serverDoneWrite _ _ _) => false
  | _ => true

/-- How a held stream is given up, given the result of the registry call: the lines logged
on the way, and whether the descriptor is closed or released.
-/
inductive ActionResult.Ends
    : ActionResult → Except IoError Unit → List WorkerEffect → Ending → WorkerEffect → Prop
  | failed {res tk tcpStream e} (silent : ActionResult.silent res = true)
    : Ends res (.error e) [] .regError (.closed tk tcpStream)
  | unwritten {tk httpResp tcpStream e}
    : Ends (.ok (.serverDoneWrite tk httpResp tcpStream)) (.error e)
        [.logged tk "sent HTTP response"] .regError (.closed tk tcpStream)
  | streamEOF {tk tcpStream}
    : Ends (.ok (.serverStreamEOF tk tcpStream)) (.ok ()) [] .streamEOF
        (.released tk tcpStream)
  | doneWrite {tk httpResp tcpStream}
    : Ends (.ok (.serverDoneWrite tk httpResp tcpStream)) (.ok ())
        [.logged tk "sent HTTP response"] .doneWrite (.released tk tcpStream)
  | casketDone {tk tcpStream casketResp}
    : Ends (.ok (.serverCasketResponseDone tk tcpStream casketResp)) (.ok ())
        [.logged tk "casket sent error http response"] .casketResponse
        (.released tk tcpStream)
  | error {error : ActionError} {result ending}
    (told
      : ending = .regError ∧ result ≠ .ok ()
        ∨ result = .ok () ∧ (ending = .ioError ∨ ending = .badClient))
    : Ends (.error error) result [.logged error.token (WorkerLoop.errorLine error.error)]
        ending (.closed error.token error.tcpStream)

namespace WorkerLoop

/-- What becomes of a handled result when nothing panics. -/
inductive Settles (bincode : Bincode) (self : WorkerLoop)
    : ActionResult → Except IoError Unit → WorkerLoop → Prop
  | answered {res result lines ending gone tk tcpStream poll keepAlive error msgBuf response}
    (held : ActionResult.held? res = some (tk, tcpStream))
    (ends : ActionResult.Ends res result lines ending gone)
    (gives : gone = .closed tk tcpStream ∨ gone = .released tk tcpStream)
    (forgets : self.worker.poll.Forgets poll tk)
    (responded
      : self.worker.msgBuf.respond bincode tk keepAlive error = .ok (msgBuf, response))
    : Settles bincode self res result
        ({ self with worker := { self.worker with poll, msgBuf } }.note
          (lines ++ [WorkerEffect.answered ending response, gone]))
  | lost {tk httpResp tcpStream e poll keepAlive error msgBuf response}
    (waits : self.worker.serverPendingStreams.lookup tk = some tcpStream)
    (forgets : self.worker.poll.Forgets poll tk)
    (responded
      : self.worker.msgBuf.respond bincode tk keepAlive error = .ok (msgBuf, response))
    : Settles bincode self (.ok (.serverNewResponse tk httpResp)) (.error e)
        ({ self with
            worker :=
              { self.worker with
                poll
                msgBuf
                serverPendingStreams := self.worker.serverPendingStreams.erase tk } }.note
          [.answered .regError response, .closed tk tcpStream])
  | accepted {tk tcpStream time}
    : Settles bincode self (.ok (.newServerRequest tk tcpStream)) (.ok ())
        ((self.withPoll
            ((self.worker.poll.registerRead tk .serverStreamRead (.ok ())).timerEvent tk time
              .requestReadTimeout)).insertReading tk tcpStream .new)
  | reading {tk reader tcpStream}
    : Settles bincode self (.ok (.serverContinueRead tk reader tcpStream)) (.ok ())
        ((self.withPoll
            (self.worker.poll.registerRead tk .serverStreamRead (.ok ()))).insertReading tk
          tcpStream reader)
  | queued {tk httpReq tcpStream}
    : Settles bincode self (.ok (.serverReadDone tk httpReq tcpStream)) (.ok ())
        ({ self with
            worker :=
              { self.worker with
                poll := self.worker.poll.deregister tk (.ok ())
                pythonThreads :=
                  self.worker.pythonThreads.queueHttpReq tk httpReq } }.insertPending tk
          tcpStream)
  | responding {tk httpResp tcpStream}
    (waits : self.worker.serverPendingStreams.lookup tk = some tcpStream)
    : Settles bincode self (.ok (.serverNewResponse tk httpResp)) (.ok ())
        ({ self with
            worker :=
              { self.worker with
                poll := self.worker.poll.registerWrite tk .serverStreamWrite (.ok ())
                serverPendingStreams :=
                  self.worker.serverPendingStreams.erase tk } }.insertWriting tk tcpStream
          (.new httpResp))
  | writing {tk writer tcpStream}
    : Settles bincode self (.ok (.serverContinueWrite tk writer tcpStream)) (.ok ())
        ((self.withPoll
            (self.worker.poll.registerWrite tk .serverStreamWrite (.ok ()))).insertWriting tk
          tcpStream writer)
  | casket {res tk tcpStream casketResp}
    (is
      : res = .serverCasketResponseNew tk tcpStream casketResp
        ∨ res = .serverCasketResponseContinue tk tcpStream casketResp)
    : Settles bincode self (.ok res) (.ok ())
        ((self.withPoll
            (self.worker.poll.registerWrite tk .casketResponseWrite (.ok ()))).insertCasket tk
          tcpStream casketResp)
  | started {tk st time result}
    : Settles bincode self (.ok (.serverPythonCodeTimeoutNew tk st)) result
        (self.withPoll (self.worker.poll.timerEvent tk time .pythonCodeTimeout))

-----------------------------------------------------------------------------------------
-- One event, one timeout
-----------------------------------------------------------------------------------------

/-- A read of a stream gives one of four results. -/
inductive ReadResult (tk : Token) (tcpStream : TcpStream) : ActionResult → Prop
  | continue (reader : Reader)
    : ReadResult tk tcpStream (.ok (.serverContinueRead tk reader tcpStream))
  | done (httpReq : HttpRequest)
    : ReadResult tk tcpStream (.ok (.serverReadDone tk httpReq tcpStream))
  | streamEOF : ReadResult tk tcpStream (.ok (.serverStreamEOF tk tcpStream))
  | failed (error : HttpError) : ReadResult tk tcpStream (.error ⟨error, tk, tcpStream⟩)

/-- A write of a response gives one of three. -/
inductive WriteResult (tk : Token) (tcpStream : TcpStream) : ActionResult → Prop
  | continue (writer : Writer)
    : WriteResult tk tcpStream (.ok (.serverContinueWrite tk writer tcpStream))
  | done (httpResp : HttpResponse)
    : WriteResult tk tcpStream (.ok (.serverDoneWrite tk httpResp tcpStream))
  | failed (error : HttpError) : WriteResult tk tcpStream (.error ⟨error, tk, tcpStream⟩)

/-- A write of a casket response keeps its code. -/
inductive CasketResult (tk : Token) (tcpStream : TcpStream) (code : UInt16)
    : ActionResult → Prop
  | continue (casketResp : CasketResponse) (same : casketResp.code = code)
    : CasketResult tk tcpStream code
        (.ok (.serverCasketResponseContinue tk tcpStream casketResp))
  | done (casketResp : CasketResponse)
    : CasketResult tk tcpStream code
        (.ok (.serverCasketResponseDone tk tcpStream casketResp))
  | failed (error : HttpError)
    : CasketResult tk tcpStream code (.error ⟨error, tk, tcpStream⟩)

/-- What an event does when nothing panics and the loop does not return. -/
inductive Delivers (cfg : Config) (bincode : Bincode) (self : WorkerLoop)
    : Token → Event → WorkerLoop → Prop
  | ctrlC {tk} : Delivers cfg bincode self tk .ctrlC { self with closing := true }
  | unixStreamRead {tk read dequeued unixSocket msgBuf slices}
    (decoded
      : self.worker.msgBuf.readUnixStream bincode read dequeued = .ok (msgBuf, .ok slices))
    : Delivers cfg bincode self tk .unixStreamRead
        ({ self with worker := { self.worker with msgBuf }, unixSocket }.note
          [.dequeued dequeued])
  | unixStreamWrite {tk write unixSocket msgBuf written}
    (wrote : self.worker.msgBuf.writeUnixStream write = (msgBuf, .ok written))
    : Delivers cfg bincode self tk .unixStreamWrite
        ({ self with worker := { self.worker with msgBuf }, unixSocket }.note
          [.handed written])
  | refused {tk fd} (full : cfg.maxRequests ≤ self.worker.pythonThreads.numPendingReqs)
    : Delivers cfg bincode self tk (.newStreamFd fd)
        (self.pushResults [.ok (new503ServiceBusy tk ⟨fd⟩)])
  | newStreamFd {tk fd} (room : self.worker.pythonThreads.numPendingReqs < cfg.maxRequests)
    : Delivers cfg bincode self tk (.newStreamFd fd)
        (self.pushResults [.ok (.newServerRequest tk ⟨fd⟩)])
  | serverStreamRead {tk tcpStream reader size res}
    (found : self.worker.serverReadingStreams.lookup tk = some (tcpStream, reader))
    (gives : ReadResult tk tcpStream res)
    : Delivers cfg bincode self tk .serverStreamRead
        ((({ self with
              worker :=
                { self.worker with
                  serverReadingStreams :=
                    self.worker.serverReadingStreams.erase tk } }.note
            [.read tk size])).pushResults [res])
  | queuedRequests {tk alive pythonThreads pool}
    (sent
      : self.worker.pythonThreads.sendQueuedRequests self.pool alive
        = .ok (pythonThreads, pool, .ok ()))
    : Delivers cfg bincode self tk .queuedRequests
        ({ self with worker := { self.worker with pythonThreads }, pool }.note
          (((pool.outstanding.drop self.pool.outstanding.length).map Prod.snd).map
            WorkerEffect.sent))
  | pollPythonResponses {tk observed pythonThreads pool results}
    (took
      : self.worker.pythonThreads.takeResponses self.pool [] observed
        = .ok (pythonThreads, pool, results, .ok ()))
    : Delivers cfg bincode self tk .pollPythonResponses
        (({ self with worker := { self.worker with pythonThreads }, pool }.pushResults
            results).note
          (((self.pool.responses.take observed.responses).map Prod.fst).map WorkerEffect.taken
            ++ (results.filterMap newResponse?).map WorkerEffect.delivered))
  | serverStreamWrite {tk tcpStream writer size res}
    (found : self.worker.serverWritingStreams.lookup tk = some (tcpStream, writer))
    (gives : WriteResult tk tcpStream res)
    : Delivers cfg bincode self tk .serverStreamWrite
        ((({ self with
              worker :=
                { self.worker with
                  serverWritingStreams :=
                    self.worker.serverWritingStreams.erase tk } }.note
            [.wrote tk none size])).pushResults [res])
  | requestReadTimeout {tk}
    : Delivers cfg bincode self tk .requestReadTimeout (self.pushTimeout tk .requestRead)
  | casketResponseWrite {tk tcpStream casketResp size res}
    (found : self.worker.serverCasketResponses.lookup tk = some (tcpStream, casketResp))
    (gives : CasketResult tk tcpStream casketResp.code res)
    : Delivers cfg bincode self tk .casketResponseWrite
        ((({ self with
              worker :=
                { self.worker with
                  serverCasketResponses :=
                    self.worker.serverCasketResponses.erase tk } }.note
            [.wrote tk (some casketResp.code) size])).pushResults [res])
  | pythonCodeTimeout {tk}
    : Delivers cfg bincode self tk .pythonCodeTimeout (self.pushTimeout tk .pythonCode)

/-- What a timeout does when the loop does not return. -/
inductive Expires (self : WorkerLoop) : Token → Timeout → WorkerLoop → Prop
  | stale {tk timeout} : Expires self tk timeout self
  | requestRead {tk tcpStream reader}
    (found : self.worker.serverReadingStreams.lookup tk = some (tcpStream, reader))
    : Expires self tk .requestRead
        ({ self with
            worker :=
              { self.worker with
                serverReadingStreams := self.worker.serverReadingStreams.erase tk
                poll := self.worker.poll.deregister tk (.ok ()) } }.pushResults
          [.ok (new408Timeout tk tcpStream)])
  | pythonCode {tk tcpStream}
    (found : self.worker.serverPendingStreams.lookup tk = some tcpStream)
    : Expires self tk .pythonCode
        (({ self with
            worker :=
              { self.worker with
                serverPendingStreams := self.worker.serverPendingStreams.erase tk
                pythonThreads := self.worker.pythonThreads.timeoutRequest tk } }.pushResults
            [.ok (new504GatewayTimeout tk tcpStream)]).note
          [.timedOut tk])

-----------------------------------------------------------------------------------------
-- Every result, event and timeout follows a rule
-----------------------------------------------------------------------------------------

variable {cfg : Config} {crates : Crates} {bincode : Bincode} {self after : WorkerLoop}

/-- Nothing panicked in a call that told the server something. -/
theorem answer_runs {ending : Ending} {responded : Except Panic (WorkerMsgBuffer × Response)}
    {gone : WorkerEffect} (runs : (self.answer ending responded gone).phase.running = true)
    : ∃ msgBuf response,
        responded = .ok (msgBuf, response)
        ∧ self.answer ending responded gone
          = { self with worker := { self.worker with msgBuf } }.note
              [.answered ending response, gone] := by
  cases responded with
  | error panic => cases runs
  | ok told => exact ⟨told.1, told.2, rfl, rfl⟩

/-- A stream whose registration succeeds or fails is forgotten once it is dropped. -/
theorem forgets_drop {before poll : Poller} {tk : Token}
    (registry : poll.registry = before.registry ∨ poll.registry = before.registry.erase tk)
    (read
      : poll.eventsRegRead = before.eventsRegRead
        ∨ poll.eventsRegRead = before.eventsRegRead.insert tk .serverStreamRead)
    (write
      : poll.eventsRegWrite = before.eventsRegWrite
        ∨ poll.eventsRegWrite = before.eventsRegWrite.insert tk .serverStreamWrite
        ∨ poll.eventsRegWrite = before.eventsRegWrite.insert tk .casketResponseWrite)
    (timerq : poll.timerq = before.timerq)
    : before.Forgets { poll with registry := poll.registry.erase tk } tk where
  gone := AList.lookup_erase _ _
  others := by
    intro other different
    rw [AList.lookup_erase_ne different]
    rcases registry with same | erased
    · rw [same]
    · rw [erased, AList.lookup_erase_ne different]
  read := read
  write := write
  timerq := timerq

/-- A deregistered stream is forgotten. -/
theorem forgets_deregister (poll : Poller) (tk : Token)
    : poll.Forgets (poll.deregister tk (.ok ())) tk where
  gone := AList.lookup_erase _ _
  others different := AList.lookup_erase_ne different
  read := .inl rfl
  write := .inl rfl
  timerq := rfl

theorem note_nil (self : WorkerLoop) : self = self.note [] := by
  rw [note, List.append_nil]

/-- A held stream is given up with the answer. -/
theorem answer_settles {noted : WorkerLoop} {res : ActionResult}
    {result : Except IoError Unit} {tk : Token} {tcpStream : TcpStream} {poll : Poller}
    {lines : List WorkerEffect} {ending : Ending} {gone : WorkerEffect} {keepAlive : Bool}
    {error : Option String} (forgets : self.worker.poll.Forgets poll tk)
    (logged : noted = (self.withPoll poll).note lines)
    (held : res.held? = some (tk, tcpStream)) (ends : res.Ends result lines ending gone)
    (gives : gone = .closed tk tcpStream ∨ gone = .released tk tcpStream)
    (runs
      : (noted.answer ending (noted.worker.msgBuf.respond bincode tk keepAlive error)
          gone).phase.running
        = true)
    : self.Settles bincode res result
        (noted.answer ending (noted.worker.msgBuf.respond bincode tk keepAlive error)
          gone) := by
  subst logged
  obtain ⟨msgBuf, response, responded, same⟩ := answer_runs runs
  have rule := Settles.answered held ends gives forgets responded
  rw [note, ← List.append_assoc] at rule
  rw [same]
  exact rule

/-- So is a stream whose registry call fails before anything is logged. -/
theorem failed_settles {res : ActionResult} {tk : Token} {tcpStream : TcpStream}
    {poll : Poller} {e : IoError} (held : res.held? = some (tk, tcpStream))
    (silent : res.silent = true)
    (runs : ((self.withPoll poll).regError bincode tk tcpStream e).phase.running = true)
    (forgets
      : self.worker.poll.Forgets { poll with registry := poll.registry.erase tk } tk)
    : self.Settles bincode res (.error e)
        ((self.withPoll poll).regError bincode tk tcpStream e) :=
  answer_settles forgets (note_nil _) held (.failed silent) (.inl rfl) runs

/-- Every action that does not panic follows a rule, one case for each action. -/
theorem handleAction_settles {act : Action} {result : Except IoError Unit} {now : SystemTime}
    (runs : (self.handleAction cfg bincode act result now).phase.running = true)
    : self.Settles bincode (.ok act) result
        (self.handleAction cfg bincode act result now) := by
  cases act with
  | newServerRequest tk tcpStream =>
      cases result with
      | error e =>
          refine failed_settles rfl rfl runs ?_
          exact forgets_drop (.inl rfl) (.inr rfl) (.inl rfl) rfl
      | ok =>
          simp only [handleAction, called, armTimer] at runs ⊢
          split
          · next overflow => rw [overflow] at runs; cases runs
          · exact .accepted
  | serverContinueRead tk reader tcpStream =>
      cases result with
      | error e =>
          refine failed_settles rfl rfl runs ?_
          exact forgets_drop (.inl rfl) (.inr rfl) (.inl rfl) rfl
      | ok => exact .reading
  | serverReadDone tk httpReq tcpStream =>
      cases result with
      | error e =>
          refine failed_settles rfl rfl runs ?_
          exact forgets_drop (.inl rfl) (.inl rfl) (.inl rfl) rfl
      | ok => exact .queued
  | serverStreamEOF tk tcpStream =>
      cases result with
      | error e =>
          refine failed_settles rfl rfl runs ?_
          exact forgets_drop (.inl rfl) (.inl rfl) (.inl rfl) rfl
      | ok =>
          exact answer_settles (forgets_deregister self.worker.poll tk) (note_nil _) rfl
            .streamEOF (.inr rfl) runs
  | serverNewResponse tk httpResp =>
      simp only [handleAction] at runs ⊢
      split
      · next missing => rw [missing] at runs; cases runs
      · next tcpStream waits =>
          rw [waits] at runs
          cases result with
          | error e =>
              obtain ⟨msgBuf, response, responded, same⟩ := answer_runs runs
              rw [called, regError, same]
              refine .lost waits ?_ responded
              exact forgets_drop (.inl rfl) (.inl rfl) (.inr (.inl rfl)) rfl
          | ok => exact .responding waits
  | serverContinueWrite tk writer tcpStream =>
      cases result with
      | error e =>
          refine failed_settles rfl rfl runs ?_
          exact forgets_drop (.inl rfl) (.inl rfl) (.inr (.inl rfl)) rfl
      | ok => exact .writing
  | serverDoneWrite tk httpResp tcpStream =>
      cases result with
      | error e =>
          have forgets
              : self.worker.poll.Forgets
                  { self.worker.poll with
                    registry := self.worker.poll.registry.erase tk } tk :=
            forgets_drop (.inl rfl) (.inl rfl) (.inl rfl) rfl
          exact answer_settles forgets rfl rfl .unwritten (.inl rfl) runs
      | ok =>
          exact answer_settles (forgets_deregister self.worker.poll tk) rfl rfl .doneWrite
            (.inr rfl) runs
  | serverCasketResponseNew tk tcpStream casketResp =>
      cases result with
      | error e =>
          refine failed_settles rfl rfl runs ?_
          exact forgets_drop (.inl rfl) (.inl rfl) (.inr (.inr rfl)) rfl
      | ok => exact .casket (.inl rfl)
  | serverCasketResponseContinue tk tcpStream casketResp =>
      cases result with
      | error e =>
          refine failed_settles rfl rfl runs ?_
          exact forgets_drop (.inl rfl) (.inl rfl) (.inr (.inr rfl)) rfl
      | ok => exact .casket (.inr rfl)
  | serverCasketResponseDone tk tcpStream casketResp =>
      cases result with
      | error e =>
          refine failed_settles rfl rfl runs ?_
          exact forgets_drop (.inl rfl) (.inl rfl) (.inl rfl) rfl
      | ok =>
          exact answer_settles (forgets_deregister self.worker.poll tk) rfl rfl .casketDone
            (.inr rfl) runs
  | serverPythonCodeTimeoutNew tk st =>
      simp only [handleAction, armTimer] at runs ⊢
      split
      · next overflow => rw [overflow] at runs; cases runs
      · exact .started

/-- So does every error. -/
theorem handleError_settles {error : ActionError} {result : Except IoError Unit}
    (runs : (self.handleError bincode error result).phase.running = true)
    : self.Settles bincode (.error error) result (self.handleError bincode error result) := by
  obtain ⟨error, tk, tcpStream⟩ := error
  cases result with
  | error e =>
      have forgets
          : self.worker.poll.Forgets
              { self.worker.poll with registry := self.worker.poll.registry.erase tk } tk :=
        forgets_drop (.inl rfl) (.inl rfl) (.inl rfl) rfl
      exact answer_settles forgets rfl rfl (.error (.inl ⟨rfl, nofun⟩)) (.inl rfl) runs
  | ok =>
      have forgets
          : self.worker.poll.Forgets
              { self.worker.poll.deregister tk (.ok ()) with
                registry := (self.worker.poll.deregister tk (.ok ())).registry.erase tk } tk :=
        forgets_drop (.inr rfl) (.inl rfl) (.inl rfl) rfl
      cases error with
      | io reason err =>
          exact answer_settles forgets rfl rfl (.error (.inr ⟨rfl, .inl rfl⟩)) (.inl rfl) runs
      | headerParse e =>
          exact answer_settles forgets rfl rfl (.error (.inr ⟨rfl, .inr rfl⟩)) (.inl rfl) runs
      | badValue reason =>
          exact answer_settles forgets rfl rfl (.error (.inr ⟨rfl, .inr rfl⟩)) (.inl rfl) runs

/-- So does every result. -/
theorem handleResult_settles {res : ActionResult} {result : Except IoError Unit}
    {now : SystemTime}
    (runs : (self.handleResult cfg bincode res result now).phase.running = true)
    : self.Settles bincode res result (self.handleResult cfg bincode res result now) := by
  cases res with
  | ok act => exact handleAction_settles runs
  | error error => exact handleError_settles runs

theorem eventServerStreamRead_gives {rng : Rng} {tk : Token} {tcpStream : TcpStream}
    {reader : Reader} {read : Except IoError Bytes} {res : ActionResult}
    (event : eventServerStreamRead crates rng tk tcpStream reader read = .ok res)
    : ReadResult tk tcpStream res := by
  unfold eventServerStreamRead at event
  split at event
  case h_1 => cases event
  case h_2 error _ => exact Except.ok.inj event ▸ .failed error
  case h_3 reader _ => exact Except.ok.inj event ▸ .continue reader
  case h_4 httpReq _ => exact Except.ok.inj event ▸ .done httpReq
  case h_5 => exact Except.ok.inj event ▸ .streamEOF

theorem eventServerStreamWrite_gives {tk : Token} {tcpStream : TcpStream} {writer : Writer}
    {write : Except IoError Nat} {res : ActionResult}
    (event : eventServerStreamWrite tk tcpStream writer write = .ok res)
    : WriteResult tk tcpStream res := by
  unfold eventServerStreamWrite at event
  split at event
  case h_1 => cases event
  case h_2 error _ => exact Except.ok.inj event ▸ .failed error
  case h_3 writer _ => exact Except.ok.inj event ▸ .continue writer
  case h_4 httpResp _ => exact Except.ok.inj event ▸ .done httpResp

theorem eventCasketResponseWrite_gives {tk : Token} {tcpStream : TcpStream}
    {casketResp : CasketResponse} {write : Except IoError Nat} {res : ActionResult}
    (event : eventCasketResponseWrite tk tcpStream casketResp write = .ok res)
    : CasketResult tk tcpStream casketResp.code res := by
  unfold eventCasketResponseWrite at event
  split at event
  · cases event
  · split at event
    · exact Except.ok.inj event ▸ .failed _
    · dsimp only at event
      split at event
      · exact Except.ok.inj event ▸ .done _
      · exact Except.ok.inj event ▸ .continue _ rfl

/-- Every event that neither panics nor ends the loop follows a rule. -/
theorem handleEvent_delivers {tk : Token} {ev : Event} {io : WorkerEventIo}
    (taken : self.handleEvent cfg crates bincode tk ev io = some after)
    (runs : after.phase.running = true)
    : self.Delivers cfg bincode tk ev after := by
  cases ev with
  | ctrlC => exact Option.some.inj taken ▸ .ctrlC
  | unixStreamRead =>
      obtain ⟨⟨read, dequeued, unixSocket⟩, -, same⟩ := Option.map_eq_some_iff.mp taken
      simp only at same
      split at same
      · subst same; cases runs
      · subst same; cases runs
      · next decoded => exact same ▸ .unixStreamRead decoded
  | unixStreamWrite =>
      simp only [handleEvent, unixStreamWrite] at taken
      split at taken
      · split at taken
        · obtain rfl := Option.some.inj taken
          cases runs
        · next written same =>
            have wrote : self.worker.msgBuf.writeUnixStream io.write
                = ((self.worker.msgBuf.writeUnixStream io.write).1, .ok written) :=
              Prod.ext rfl same
            exact Option.some.inj taken ▸ .unixStreamWrite wrote
      · cases taken
  | newStreamFd fd =>
      obtain rfl := Option.some.inj taken
      unfold newStreamFd
      split
      · next full => exact .refused full
      · next room => exact .newStreamFd (Nat.lt_of_not_le room)
  | serverStreamRead =>
      simp only [handleEvent, serverStreamRead] at taken
      split at taken
      · obtain rfl := Option.some.inj taken
        cases runs
      · next found =>
          split at taken
          · split at taken
            · obtain rfl := Option.some.inj taken
              cases runs
            · next event =>
                exact Option.some.inj taken
                  ▸ .serverStreamRead found (eventServerStreamRead_gives event)
          · cases taken
  | queuedRequests =>
      obtain rfl := Option.some.inj taken
      unfold queuedRequests at runs ⊢
      split
      · next panicked => rw [panicked] at runs; cases runs
      · next ended => rw [ended] at runs; cases runs
      · next sent => exact .queuedRequests sent
  | pollPythonResponses =>
      obtain rfl := Option.some.inj taken
      unfold pollPythonResponses at runs ⊢
      split
      · next panicked => rw [panicked] at runs; cases runs
      · next ended => rw [ended] at runs; cases runs
      · next took => exact .pollPythonResponses took
  | serverStreamWrite =>
      simp only [handleEvent, serverStreamWrite] at taken
      split at taken
      · obtain rfl := Option.some.inj taken
        cases runs
      · next found =>
          split at taken
          · split at taken
            · obtain rfl := Option.some.inj taken
              cases runs
            · next event =>
                exact Option.some.inj taken
                  ▸ .serverStreamWrite found (eventServerStreamWrite_gives event)
          · cases taken
  | requestReadTimeout => exact Option.some.inj taken ▸ .requestReadTimeout
  | casketResponseWrite =>
      simp only [handleEvent, casketResponseWrite] at taken
      split at taken
      · obtain rfl := Option.some.inj taken
        cases runs
      · next found =>
          split at taken
          · split at taken
            · obtain rfl := Option.some.inj taken
              cases runs
            · next event =>
                exact Option.some.inj taken
                  ▸ .casketResponseWrite found (eventCasketResponseWrite_gives event)
          · cases taken
  | pythonCodeTimeout => exact Option.some.inj taken ▸ .pythonCodeTimeout

/-- So does every timeout. -/
theorem handleTimeout_expires {tk : Token} {timeout : Timeout} {result : Except IoError Unit}
    (runs : (self.handleTimeout tk timeout result).phase.running = true)
    : self.Expires tk timeout (self.handleTimeout tk timeout result) := by
  cases timeout with
  | requestRead =>
      simp only [handleTimeout] at runs ⊢
      split
      · exact .stale
      · next found =>
          rw [found] at runs
          cases result with
          | error e => cases runs
          | ok => exact .requestRead found
  | pythonCode =>
      simp only [handleTimeout]
      split
      · exact .stale
      · next found => exact .pythonCode found

-----------------------------------------------------------------------------------------
-- Every step follows a rule
-----------------------------------------------------------------------------------------

/-- The ways the loop and what is around it go on. -/
inductive Takes (cfg : Config) (bincode : Bincode) (self : WorkerLoop)
    : WorkerInput → WorkerLoop → Prop
  | top (stands : self.phase = .top) (goes : self.finished = false)
    : Takes cfg bincode self .top self.loopTop
  | tick {events delivered now popped polled poll} (stands : self.phase = .ticking events)
    (pops : self.worker.poll.Pops now popped)
    (ticked
      : self.worker.poll.tick events now popped polled = .ok (poll, .ok delivered))
    : Takes cfg bincode self (.tick now popped polled)
        { self.withPoll poll with phase := .events delivered [] [] }
  | event {tk ev evs tmos results io after}
    (stands : self.phase = .events ((tk, ev) :: evs) tmos results)
    (delivers
      : { self with phase := .events evs tmos results }.Delivers cfg bincode tk ev after)
    : Takes cfg bincode self (.event io) after
  | delivered {tmos results} (stands : self.phase = .events [] tmos results)
    : Takes cfg bincode self .advance { self with phase := .actions results tmos }
  | acted {tmos} (stands : self.phase = .actions [] tmos)
    : Takes cfg bincode self .advance { self with phase := .timeouts tmos [] }
  | timeout {tk timeout tmos results result after}
    (stands : self.phase = .timeouts ((tk, timeout) :: tmos) results)
    (expires : { self with phase := .timeouts tmos results }.Expires tk timeout after)
    : Takes cfg bincode self (.timeout result) after
  | expired {results} (stands : self.phase = .timeouts [] results)
    : Takes cfg bincode self .advance { self with phase := .timeoutActions results }
  | settled (stands : self.phase = .timeoutActions [])
    : Takes cfg bincode self .advance { self with phase := .reregister }
  | reregistered (stands : self.phase = .reregister)
    : Takes cfg bincode self (.reregister (.ok ())) (self.reregisterUnix (.ok ()))
  | result {res phase result now after} (popped : self.phase.nextResult = some (res, phase))
    (settles : { self with phase }.Settles bincode res result after)
    : Takes cfg bincode self (.action result now) after
  | socket {unixSocket} (runs : self.phase.running = true)
    : Takes cfg bincode self (.socket unixSocket) { self with unixSocket }
  | codeStart {thread tk time} (runs : self.phase.running = true)
    (handed : (thread, tk) ∈ self.pool.outstanding)
    : Takes cfg bincode self (.codeStart thread tk time)
        { self with
          pool := { self.pool with codeStarts := self.pool.codeStarts ++ [(tk, time)] } }
  | respond {thread tk resp} (runs : self.phase.running = true)
    (handed : (thread, tk) ∈ self.pool.outstanding)
    : Takes cfg bincode self (.respond thread tk resp)
        { self with
          pool :=
            { self.pool with
              outstanding := self.pool.outstanding.erase (thread, tk)
              responses := self.pool.responses ++ [(tk, resp)] } }
  | threadDies {thread} (runs : self.phase.running = true)
    : Takes cfg bincode self (.threadDies thread)
        { self with pool := self.pool.threadDies thread }

/-- A result is handled in either drain. -/
theorem step_action (result : Except IoError Unit) (now : SystemTime)
    : self.step cfg crates bincode (.action result now)
      = self.phase.nextResult.map fun (res, phase) =>
          { self with phase }.handleResult cfg bincode res result now := by
  unfold step
  split
  case h_10 same =>
    cases same
    rfl
  case h_15 other _ _ _ _ _ _ _ _ _ _ _ _ _ => exact absurd rfl (other result now)
  all_goals contradiction

/-- Every step after which the loop still runs follows a rule. -/
theorem step_takes {input : WorkerInput}
    (taken : self.step cfg crates bincode input = some after)
    (runs : after.phase.running = true)
    : self.Takes cfg bincode input after := by
  unfold step at taken
  split at taken
  case h_1 stands =>
    obtain rfl := Option.some.inj taken
    refine .top stands ?_
    cases done : self.finished with
    | false => rfl
    | true => simp [loopTop, done, returns, WorkerPhase.running] at runs
  case h_2 stands =>
    split at taken
    · next pops =>
        obtain rfl := Option.some.inj taken
        unfold WorkerLoop.tick at runs ⊢
        split
        · next panicked => rw [panicked] at runs; cases runs
        · next ended => rw [ended] at runs; cases runs
        · next ticked => exact .tick stands pops ticked
    · cases taken
  case h_3 stands => exact .event stands (handleEvent_delivers taken runs)
  case h_4 stands => exact Option.some.inj taken ▸ .delivered stands
  case h_5 stands => exact Option.some.inj taken ▸ .acted stands
  case h_6 stands =>
    obtain rfl := Option.some.inj taken
    exact .timeout stands (handleTimeout_expires runs)
  case h_7 stands => exact Option.some.inj taken ▸ .expired stands
  case h_8 stands => exact Option.some.inj taken ▸ .settled stands
  case h_9 result stands =>
    obtain rfl := Option.some.inj taken
    cases result with
    | error e => cases runs
    | ok => exact .reregistered stands
  case h_10 =>
    obtain ⟨⟨res, phase⟩, popped, rfl⟩ := Option.map_eq_some_iff.mp taken
    exact .result popped (handleResult_settles runs)
  case h_11 =>
    obtain rfl := Option.some.inj taken
    exact .socket runs
  case h_12 =>
    obtain ⟨pool, started, rfl⟩ := Option.map_eq_some_iff.mp taken
    unfold PythonPool.codeStart at started
    split at started
    · next may => exact Option.some.inj started ▸ .codeStart runs may.2
    · cases started
  case h_13 =>
    obtain ⟨pool, answered, rfl⟩ := Option.map_eq_some_iff.mp taken
    unfold PythonPool.respond at answered
    split at answered
    · next may => exact Option.some.inj answered ▸ .respond runs may.2
    · cases answered
  case h_14 =>
    obtain rfl := Option.some.inj taken
    exact .threadDies runs
  case h_15 => cases taken

/-- A loop that has ended takes no rule. -/
theorem Takes.runs {input : WorkerInput} (takes : self.Takes cfg bincode input after)
    : self.phase.running = true := by
  cases takes with
  | result popped =>
      cases stands : self.phase with
      | actions | timeoutActions => rfl
      | _ => rw [stands] at popped; cases popped
  | socket runs => exact runs
  | codeStart runs => exact runs
  | respond runs => exact runs
  | threadDies runs => exact runs
  | _ => rw [‹self.phase = _›]; rfl

/-- What every rule keeps holds as long as the loop runs. -/
theorem running_reach {guard : WorkerLoop → WorkerInput → Prop} (inv : WorkerLoop → Prop)
    (initial : inv (.new cfg))
    (kept
      : ∀ {before input after},
          inv before → guard before input → Takes cfg bincode before input after → inv after)
    {state : WorkerLoop} (run : Reach (step cfg crates bincode) guard (.new cfg) state)
    (runs : state.phase.running = true)
    : inv state := by
  refine run.invariant (fun state => state.phase.running = true → inv state)
    (fun _ => initial) ?_ runs
  intro before label after earlier allowed taken runs
  have takes := step_takes taken runs
  exact kept (earlier takes.runs) allowed takes

end WorkerLoop

-----------------------------------------------------------------------------------------
-- Whole turns of the loop
-----------------------------------------------------------------------------------------

/-- The calls of an event that nothing comes from. -/
def WorkerEventIo.quiet : WorkerEventIo where
  unixRead := .ok 0
  ready := 0
  read := .ok []
  rng := ⟨[], []⟩
  body := ⟨[], true⟩
  write := .ok 0
  alive := []
  observed := ⟨0, .empty, 0, .empty⟩

namespace WorkerInput

/-- The server hands over some streams. -/
def streams (bincode : Bincode) (requests : List Request) (fds : List RawFd) : WorkerInput :=
  .socket
    { UnixSocket.pair with
      toWorker :=
        requests.flatMap fun request =>
          let payload := bincode.serializeRequest request
          UInt8.ofNat payload.length :: payload
      fds }

/-- One turn at some time, in which every registry call succeeds: the timers that are due,
what is polled, the calls of each event, and how many results and timeouts are handled.
-/
def turn (now : SystemTime) (popped : List TimerEntry) (polled : List MioEvent)
    (events : List WorkerEventIo) (actions timeouts timeoutActions : Nat)
    : List WorkerInput :=
  [.top, .tick now popped (.ok polled)] ++ events.map .event ++ [.advance]
  ++ List.replicate actions (.action (.ok ()) now) ++ [.advance]
  ++ List.replicate timeouts (.timeout (.ok ())) ++ [.advance]
  ++ List.replicate timeoutActions (.action (.ok ()) now)
  ++ [.advance, .reregister (.ok ())]

/-- The turns in which some streams arrive and are registered. -/
def accepting (bincode : Bincode) (now : SystemTime) (requests : List Request)
    (fds : List RawFd)
    : List WorkerInput :=
  [streams bincode requests fds]
  ++ turn now [] [⟨unixStreamToken, true, false⟩]
      [{ WorkerEventIo.quiet with
          unixRead := .ok (13 * requests.length)
          ready := fds.length }] 0 0 0
  ++ turn now [] [] (fds.map fun _ => .quiet) fds.length 0 0

end WorkerInput

namespace WorkerLoop

/-- A response of the application. -/
def ok200 : HttpResponse where
  method := "GET"
  url := { href := "http://a/", path := "/", query := none }
  code := 200
  reason := "OK"
  context := ⟨"", "", none⟩
  keepAlive := true
  reqHeaders := []
  reqContentLength := 0
  respHeaders := []
  respContentLength := none
  respBody := none

/-- What is found in the two channels at some time. -/
def found (codeStarts responses : Nat) : WorkerEventIo :=
  { WorkerEventIo.quiet with observed := ⟨codeStarts, .empty, responses, .empty⟩ }

end WorkerLoop
end Casket
