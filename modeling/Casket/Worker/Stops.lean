import Casket.Worker.Requests
import Casket.Worker.Steps

/-! How the worker's loop ends: the call that failed or panicked, and what it did not find.
A loop that has ended stays as it is, so the end of a run is one step after a running state.
-/

namespace Casket

open Lib

-----------------------------------------------------------------------------------------
-- The panics inside the calls
-----------------------------------------------------------------------------------------

/-- The panics of the reader, the writer, the poller, the queue and the decoder. -/
def Panic.inner : Panic → Bool
  | .subtractOverflow | .capacityOverflow | .sliceOutOfRange | .requestNotParsed => true
  | .bytesWrittenUnderflow | .readReg | .writeReg | .workqIndex => true
  | .deserializeRequest => true
  | _ => false

section Inner

variable {crates : Crates} {rng : Rng} {tk : Token} {tcpStream : TcpStream} {panic : Panic}

theorem resize_inner {buf : Bytes} {size : Nat} (failed : resize buf size = .error panic)
    : panic.inner = true := by
  unfold resize at failed
  split at failed
  · obtain rfl := Except.error.inj failed
    rfl
  · cases failed

theorem sliceFrom_inner {buf : Bytes} {start : Nat} (failed : sliceFrom buf start = .error panic)
    : panic.inner = true := by
  unfold sliceFrom at failed
  split at failed
  · cases failed
  · obtain rfl := Except.error.inj failed
    rfl

theorem PartialHttpReq.new_inner {request : ParsedRequest}
    (failed : PartialHttpReq.new crates rng request = .error panic)
    : panic.inner = true := by
  unfold PartialHttpReq.new at failed
  repeat' split at failed
  all_goals cases failed
  all_goals rfl

theorem PartialHttpReq.takeBody_inner {req : PartialHttpReq} {buffer : Bytes}
    {headerSize : Nat} (failed : req.takeBody buffer headerSize = .error panic)
    : panic.inner = true := by
  unfold PartialHttpReq.takeBody at failed
  split at failed
  · next sliced => exact sliceFrom_inner (Except.error.inj failed ▸ sliced)
  · split at failed
    · cases failed
    · split at failed
      · obtain rfl := Except.error.inj failed
        rfl
      · split at failed
        · next grown => exact resize_inner (Except.error.inj failed ▸ grown)
        · cases failed

theorem Reader.growBuffer_inner {bufLen : Nat} {buf : Bytes}
    (failed : Reader.growBuffer bufLen buf = .error panic)
    : panic.inner = true := by
  unfold Reader.growBuffer at failed
  split at failed
  · obtain rfl := Except.error.inj failed
    rfl
  · split at failed
    · exact resize_inner failed
    · cases failed

theorem Reader.parseHeader_inner {bufLen : Nat} {buf : Bytes}
    (failed : Reader.parseHeader crates rng bufLen buf = .error panic)
    : panic.inner = true := by
  unfold Reader.parseHeader at failed
  split at failed
  · obtain rfl := Except.error.inj failed
    rfl
  · split at failed
    · cases failed
    · cases failed
    · split at failed
      · next parsed => exact PartialHttpReq.new_inner (Except.error.inj failed ▸ parsed)
      · cases failed
      · split at failed
        · next taken => exact PartialHttpReq.takeBody_inner (Except.error.inj failed ▸ taken)
        · cases failed
        · cases failed

theorem Reader.readHeader_inner {bufLen : Nat} {buf : Bytes} {read : Except IoError Bytes}
    (failed : Reader.readHeader crates rng bufLen buf read = .error panic)
    : panic.inner = true := by
  unfold Reader.readHeader at failed
  split at failed
  · next grown => exact Reader.growBuffer_inner (Except.error.inj failed ▸ grown)
  · split at failed
    · next sliced => exact sliceFrom_inner (Except.error.inj failed ▸ sliced)
    · split at failed
      · cases failed
      · cases failed
      · exact Reader.parseHeader_inner failed

theorem PartialHttpReq.readTcpStream_inner {req : PartialHttpReq} {read : Except IoError Bytes}
    (failed : req.readTcpStream read = .error panic)
    : panic.inner = true := by
  unfold PartialHttpReq.readTcpStream at failed
  split at failed
  · next sliced => exact sliceFrom_inner (Except.error.inj failed ▸ sliced)
  · split at failed
    · cases failed
    · cases failed
    · cases failed

theorem eventServerStreamRead_inner {reader : Reader} {read : Except IoError Bytes}
    (failed : eventServerStreamRead crates rng tk tcpStream reader read = .error panic)
    : panic.inner = true := by
  unfold eventServerStreamRead at failed
  split at failed
  · next stopped =>
      obtain rfl := Except.error.inj failed
      cases reader with
      | begin bufLen buf => exact Reader.readHeader_inner stopped
      | haveHeader req =>
          simp only [Reader.readTcpStream] at stopped
          split at stopped
          · next body =>
              exact PartialHttpReq.readTcpStream_inner (Except.error.inj stopped ▸ body)
          · cases stopped
          · cases stopped
  all_goals cases failed

theorem Writer.wrote_inner {writer : Writer} {written : Nat}
    (failed : writer.wrote written = .error panic)
    : panic.inner = true := by
  unfold Writer.wrote at failed
  split at failed
  · obtain rfl := Except.error.inj failed
    rfl
  · dsimp only at failed
    split at failed
    · split at failed
      · obtain rfl := Except.error.inj failed
        rfl
      · cases failed
    · cases failed

theorem eventServerStreamWrite_inner {writer : Writer} {write : Except IoError Nat}
    (failed : eventServerStreamWrite tk tcpStream writer write = .error panic)
    : panic.inner = true := by
  unfold eventServerStreamWrite at failed
  split at failed
  · next stopped =>
      obtain rfl := Except.error.inj failed
      unfold Writer.writeTcpStream at stopped
      split at stopped
      · cases stopped
      · split at stopped
        · next wrote => exact Writer.wrote_inner (Except.error.inj stopped ▸ wrote)
        · cases stopped
  all_goals cases failed

theorem eventCasketResponseWrite_inner {casketResp : CasketResponse}
    {write : Except IoError Nat}
    (failed : eventCasketResponseWrite tk tcpStream casketResp write = .error panic)
    : panic.inner = true := by
  unfold eventCasketResponseWrite at failed
  split at failed
  · obtain rfl := Except.error.inj failed
    rfl
  · split at failed
    · cases failed
    · dsimp only at failed
      split at failed
      · cases failed
      · cases failed

theorem readUnixStream_inner {bincode : Bincode} {msgBuf : WorkerMsgBuffer}
    {read : Except IoError Bytes} {dequeued : List RawFd}
    (failed : msgBuf.readUnixStream bincode read dequeued = .error panic)
    : panic.inner = true := by
  unfold WorkerMsgBuffer.readUnixStream at failed
  split at failed
  · cases failed
  · dsimp only at failed
    split at failed
    · obtain rfl := Except.error.inj failed
      rfl
    · cases failed

theorem Poller.takeRegistered_inner {poll : Poller} {mioEv : MioEvent}
    (failed : poll.takeRegistered mioEv = .error panic)
    : panic.inner = true := by
  unfold Poller.takeRegistered at failed
  dsimp only at failed
  split at failed
  · next stopped =>
      obtain rfl := Except.error.inj failed
      split at stopped
      · split at stopped
        · obtain rfl := Except.error.inj stopped
          rfl
        · cases stopped
      · cases stopped
  · split at failed
    · split at failed
      · obtain rfl := Except.error.inj failed
        rfl
      · cases failed
    · cases failed

/-- By induction on the polled events. -/
theorem Poller.takeAllRegistered_inner {poll : Poller} {events : List (Token × Event)}
    {mioEvents : List MioEvent}
    (failed : poll.takeAllRegistered events mioEvents = .error panic)
    : panic.inner = true := by
  induction mioEvents generalizing poll events with
  | nil => cases failed
  | cons mioEv rest ih =>
      simp only [Poller.takeAllRegistered] at failed
      split at failed
      · next stopped => exact Poller.takeRegistered_inner (Except.error.inj failed ▸ stopped)
      · exact ih failed

theorem Poller.tick_inner {poll : Poller} {events : List (Token × Event)} {now : SystemTime}
    {popped : List TimerEntry} {polled : Except IoError (List MioEvent)}
    (failed : poll.tick events now popped polled = .error panic)
    : panic.inner = true := by
  unfold Poller.tick at failed
  dsimp only at failed
  split at failed
  · split at failed
    · cases failed
    · cases failed
  · split at failed
    · next stopped =>
        exact Poller.takeAllRegistered_inner (Except.error.inj failed ▸ stopped)
    · cases failed

/-- By induction on the turns. -/
theorem WorkQ.sendLoop_inner {alive : Nat → Bool} {turns : Nat} {queue : WorkQ}
    (failed : queue.sendLoop alive turns = .error panic)
    : panic.inner = true := by
  induction turns generalizing queue with
  | zero => cases failed
  | succ turns ih =>
      simp only [WorkQ.sendLoop] at failed
      split at failed
      · cases failed
      · split at failed
        · obtain rfl := Except.error.inj failed
          rfl
        · split at failed
          · cases failed
          · exact ih failed

/-- By induction on the queued requests. -/
theorem PythonThreads.sendLoop_inner {threads : PythonThreads} {pool : PythonPool}
    {requests : List (Token × HttpRequest)} {alive : List (List Nat)}
    (failed : threads.sendLoop pool requests alive = .error panic)
    : panic.inner = true := by
  induction requests generalizing threads pool alive with
  | nil => cases failed
  | cons request rest ih =>
      simp only [PythonThreads.sendLoop] at failed
      split at failed
      · next stopped => exact WorkQ.sendLoop_inner (Except.error.inj failed ▸ stopped)
      · cases failed
      · exact ih failed

end Inner

namespace WorkerLoop

/-- The ways an event ends the loop. -/
inductive Breaks (crates : Crates) (bincode : Bincode) (self : WorkerLoop) (tk : Token)
    : Event → WorkerEventIo → WorkerPhase → Prop
  | io {ev io reason e} : Breaks crates bincode self tk ev io (.returned (.error (.io reason e)))
  | unixStreamRead {io panic read dequeued}
    (failed : self.worker.msgBuf.readUnixStream bincode read dequeued = .error panic)
    : Breaks crates bincode self tk .unixStreamRead io (.panicked panic)
  | readingStream {io} (missing : self.worker.serverReadingStreams.lookup tk = none)
    : Breaks crates bincode self tk .serverStreamRead io (.panicked .readingStream)
  | serverStreamRead {io panic tcpStream reader}
    (failed
      : eventServerStreamRead crates io.rng tk tcpStream reader io.read = .error panic)
    : Breaks crates bincode self tk .serverStreamRead io (.panicked panic)
  | unsent {io panic}
    (failed
      : self.worker.pythonThreads.sendQueuedRequests self.pool io.alive = .error panic)
    : Breaks crates bincode self tk .queuedRequests io (.panicked panic)
  | sendDied {io pythonThreads pool e}
    (failed
      : self.worker.pythonThreads.sendQueuedRequests self.pool io.alive
        = .ok (pythonThreads, pool, .error e))
    : Breaks crates bincode self tk .queuedRequests io (.returned (.error e))
  | untaken {io panic}
    (failed
      : self.worker.pythonThreads.takeResponses self.pool [] io.observed = .error panic)
    : Breaks crates bincode self tk .pollPythonResponses io (.panicked panic)
  | takeDied {io pythonThreads pool results e}
    (failed
      : self.worker.pythonThreads.takeResponses self.pool [] io.observed
        = .ok (pythonThreads, pool, results, .error e))
    : Breaks crates bincode self tk .pollPythonResponses io (.returned (.error e))
  | writingStream {io} (missing : self.worker.serverWritingStreams.lookup tk = none)
    : Breaks crates bincode self tk .serverStreamWrite io (.panicked .writingStream)
  | serverStreamWrite {io panic tcpStream writer}
    (failed : eventServerStreamWrite tk tcpStream writer io.write = .error panic)
    : Breaks crates bincode self tk .serverStreamWrite io (.panicked panic)
  | casketResponse {io} (missing : self.worker.serverCasketResponses.lookup tk = none)
    : Breaks crates bincode self tk .casketResponseWrite io (.panicked .casketResponse)
  | casketResponseWrite {io panic tcpStream casketResp}
    (failed : eventCasketResponseWrite tk tcpStream casketResp io.write = .error panic)
    : Breaks crates bincode self tk .casketResponseWrite io (.panicked panic)

/-- What a handled result does not find when it panics. -/
inductive Misses (cfg : Config) (self : WorkerLoop)
    : ActionResult → Except IoError Unit → SystemTime → Panic → Prop
  | serverFd {res result now tk tcpStream}
    (held : ActionResult.held? res = some (tk, tcpStream))
    (missing : self.worker.msgBuf.serverFds.lookup tk = none)
    : Misses cfg self res result now .serverFd
  | unanswered {tk httpResp result now tcpStream}
    (waits : self.worker.serverPendingStreams.lookup tk = some tcpStream)
    (missing : self.worker.msgBuf.serverFds.lookup tk = none)
    : Misses cfg self (.ok (.serverNewResponse tk httpResp)) result now .serverFd
  | pendingStream {tk httpResp result now}
    (missing : self.worker.serverPendingStreams.lookup tk = none)
    : Misses cfg self (.ok (.serverNewResponse tk httpResp)) result now .pendingStream
  | readTimeout {tk tcpStream now}
    (overflows : SystemTime.add? now cfg.requestReadTimeout = none)
    : Misses cfg self (.ok (.newServerRequest tk tcpStream)) (.ok ()) now .timeOverflow
  | codeTimeout {tk st result now}
    (overflows : SystemTime.add? st cfg.pythonCodeTimeout = none)
    : Misses cfg self (.ok (.serverPythonCodeTimeoutNew tk st)) result now .timeOverflow

/-- The ways a step ends the loop, with the phase it ends in. -/
inductive Stops (cfg : Config) (crates : Crates) (bincode : Bincode) (self : WorkerLoop)
    : WorkerInput → WorkerPhase → Prop
  | finished (stands : self.phase = .top) (done : self.finished = true)
    : Stops cfg crates bincode self .top (.returned (.ok ()))
  | io {input reason e} : Stops cfg crates bincode self input (.returned (.error (.io reason e)))
  | tick {events now popped polled panic} (stands : self.phase = .ticking events)
    (failed : self.worker.poll.tick events now popped polled = .error panic)
    : Stops cfg crates bincode self (.tick now popped polled) (.panicked panic)
  | event {tk ev evs tmos results io phase}
    (stands : self.phase = .events ((tk, ev) :: evs) tmos results)
    (breaks
      : { self with phase := .events evs tmos results }.Breaks crates bincode tk ev io phase)
    : Stops cfg crates bincode self (.event io) phase
  | result {res phase result now panic} (popped : self.phase.nextResult = some (res, phase))
    (misses : { self with phase }.Misses cfg res result now panic)
    : Stops cfg crates bincode self (.action result now) (.panicked panic)

variable {cfg : Config} {crates : Crates} {bincode : Bincode} {self after : WorkerLoop}

/-- What an event does not find when it panics outside the calls. -/
inductive Lacks (self : WorkerLoop) (tk : Token) : Event → Panic → Prop
  | readingStream (missing : self.worker.serverReadingStreams.lookup tk = none)
    : Lacks self tk .serverStreamRead .readingStream
  | writingStream (missing : self.worker.serverWritingStreams.lookup tk = none)
    : Lacks self tk .serverStreamWrite .writingStream
  | casketResponse (missing : self.worker.serverCasketResponses.lookup tk = none)
    : Lacks self tk .casketResponseWrite .casketResponse
  | uncounted
    (fewer : self.worker.pythonThreads.numPendingReqs < self.pool.responses.length)
    : Lacks self tk .pollPythonResponses .numPendingReqsUnderflow

/-- A panic of an event is inside a call, or the event did not find something. -/
theorem Breaks.lacks {tk : Token} {ev : Event} {io : WorkerEventIo} {panic : Panic}
    (breaks : self.Breaks crates bincode tk ev io (.panicked panic))
    (outer : panic.inner = false)
    : self.Lacks tk ev panic := by
  have within (is : panic.inner = true) : self.Lacks tk ev panic := by
    rw [is] at outer
    cases outer
  cases breaks with
  | unixStreamRead failed => exact within (readUnixStream_inner failed)
  | readingStream missing => exact .readingStream missing
  | serverStreamRead failed => exact within (eventServerStreamRead_inner failed)
  | unsent failed => exact within (PythonThreads.sendLoop_inner failed)
  | untaken failed =>
      obtain ⟨rfl, fewer⟩ := PythonThreads.takeResponses_error failed
      exact .uncounted (fewer.trans_le (List.length_take_le' _ _))
  | writingStream missing => exact .writingStream missing
  | serverStreamWrite failed => exact within (eventServerStreamWrite_inner failed)
  | casketResponse missing => exact .casketResponse missing
  | casketResponseWrite failed => exact within (eventCasketResponseWrite_inner failed)

/-- What a step that ends the loop may still note: a line, a read, or a write to a stream
that is being answered.
-/
def Passes (before : WorkerLoop) : WorkerEffect → Prop
  | .logged _ _ => True
  | .read _ _ => True
  | .wrote tk none _ => tk ∈ before.worker.serverWritingStreams.keys
  | .wrote tk (some code) _ =>
      ∃ tcpStream casketResp,
        before.worker.serverCasketResponses.lookup tk = some (tcpStream, casketResp)
        ∧ casketResp.code = code
  | _ => False

/-- What a step that ends the loop leaves alone: the threads, and what the server was told. -/
structure Leaves (before after : WorkerLoop) : Prop where
  threads : after.worker.pythonThreads = before.worker.pythonThreads
  trace
    : ∃ effects,
        after.trace = before.trace ++ effects ∧ ∀ effect ∈ effects, before.Passes effect

theorem Leaves.same (threads : after.worker.pythonThreads = self.worker.pythonThreads)
    (trace : after.trace = self.trace)
    : self.Leaves after :=
  ⟨threads, [], trace.trans (List.append_nil _).symm, nofun⟩

theorem Leaves.noted {effect : WorkerEffect}
    (threads : after.worker.pythonThreads = self.worker.pythonThreads)
    (trace : after.trace = self.trace ++ [effect]) (passes : self.Passes effect)
    : self.Leaves after :=
  ⟨threads, [effect], trace, fun _ member => List.mem_singleton.mp member ▸ passes⟩

theorem Leaves.then (first : self.Leaves after) {last : WorkerLoop}
    (threads : last.worker.pythonThreads = after.worker.pythonThreads)
    (trace : last.trace = after.trace)
    : self.Leaves last where
  threads := threads.trans first.threads
  trace := trace ▸ first.trace

/-- A call that tells the server panics only without the server's descriptor. -/
theorem answer_stops {ending : Ending} {msgBuf : WorkerMsgBuffer} {tk : Token}
    {keepAlive : Bool} {error : Option String} {gone : WorkerEffect}
    (stopped
      : (self.answer ending (msgBuf.respond bincode tk keepAlive error) gone).phase.running
        = false)
    (runs : self.phase.running = true)
    : msgBuf.serverFds.lookup tk = none
      ∧ (self.answer ending (msgBuf.respond bincode tk keepAlive error) gone).phase
        = .panicked .serverFd
      ∧ (self.answer ending (msgBuf.respond bincode tk keepAlive error) gone).worker
        = self.worker
      ∧ (self.answer ending (msgBuf.respond bincode tk keepAlive error) gone).trace
        = self.trace := by
  unfold WorkerMsgBuffer.respond at stopped ⊢
  split
  · next missing => exact ⟨missing, rfl, rfl, rfl⟩
  · next found =>
      rw [found] at stopped
      exact absurd runs (Bool.eq_false_iff.mp stopped)

/-- A result is not handled: what it missed, with the threads left alone. -/
def Unhandled (cfg : Config) (self : WorkerLoop) (res : ActionResult)
    (result : Except IoError Unit) (now : SystemTime) (after : WorkerLoop)
    : Prop :=
  ∃ panic,
    after.phase = .panicked panic ∧ self.Misses cfg res result now panic
    ∧ self.Leaves after

/-- A held stream that cannot be given up has no descriptor of the server's. -/
theorem held_stops {noted : WorkerLoop} {res : ActionResult} {result : Except IoError Unit}
    {now : SystemTime} {tk : Token} {tcpStream : TcpStream} {ending : Ending}
    {keepAlive : Bool} {error : Option String} {gone : WorkerEffect}
    (held : res.held? = some (tk, tcpStream)) (runs : noted.phase.running = true)
    (msgBuf : noted.worker.msgBuf = self.worker.msgBuf) (leaves : self.Leaves noted)
    (stopped
      : (noted.answer ending (noted.worker.msgBuf.respond bincode tk keepAlive error)
          gone).phase.running
        = false)
    : self.Unhandled cfg res result now
        (noted.answer ending (noted.worker.msgBuf.respond bincode tk keepAlive error)
          gone) := by
  obtain ⟨missing, ends, worker, trace⟩ := answer_stops stopped runs
  refine ⟨.serverFd, ends, .serverFd held ?_, ?_⟩
  case refine_2 => exact leaves.then (congrArg Worker.pythonThreads worker) trace
  rw [← msgBuf]
  exact missing

/-- Every action that panics missed something. -/
theorem handleAction_stops {act : Action} {result : Except IoError Unit} {now : SystemTime}
    (runs : self.phase.running = true)
    (stopped : (self.handleAction cfg bincode act result now).phase.running = false)
    : self.Unhandled cfg (.ok act) result now
        (self.handleAction cfg bincode act result now) := by
  have kept : ¬ self.phase.running = false := Bool.eq_false_iff.not.mpr (not_not.mpr runs)
  cases act with
  | newServerRequest tk tcpStream =>
      cases result with
      | error e => exact held_stops rfl runs rfl (.same rfl rfl) stopped
      | ok =>
          simp only [handleAction, called, armTimer] at stopped ⊢
          split
          · next overflows => exact ⟨_, rfl, .readTimeout overflows, .same rfl rfl⟩
          · next fits =>
              rw [fits] at stopped
              exact absurd stopped kept
  | serverNewResponse tk httpResp =>
      simp only [handleAction] at stopped ⊢
      split
      · next missing => exact ⟨_, rfl, .pendingStream missing, .same rfl rfl⟩
      · next tcpStream waits =>
          rw [waits] at stopped
          cases result with
          | error e =>
              obtain ⟨missing, ends, worker, trace⟩ := answer_stops stopped runs
              have threads := congrArg Worker.pythonThreads worker
              exact ⟨_, ends, .unanswered waits missing, .same threads trace⟩
          | ok => exact absurd stopped kept
  | serverPythonCodeTimeoutNew tk st =>
      simp only [handleAction, armTimer] at stopped ⊢
      split
      · next overflows => exact ⟨_, rfl, .codeTimeout overflows, .same rfl rfl⟩
      · next fits =>
          rw [fits] at stopped
          exact absurd stopped kept
  | serverStreamEOF tk tcpStream =>
      cases result <;> exact held_stops rfl runs rfl (.same rfl rfl) stopped
  | serverDoneWrite tk httpResp tcpStream =>
      cases result <;> exact held_stops rfl runs rfl (.noted rfl rfl trivial) stopped
  | serverCasketResponseDone tk tcpStream casketResp =>
      cases result with
      | error e => exact held_stops rfl runs rfl (.same rfl rfl) stopped
      | ok => exact held_stops rfl runs rfl (.noted rfl rfl trivial) stopped
  | serverContinueRead | serverReadDone | serverContinueWrite | serverCasketResponseNew
  | serverCasketResponseContinue =>
      cases result with
      | error e => exact held_stops rfl runs rfl (.same rfl rfl) stopped
      | ok => exact absurd stopped kept

/-- So does every error. -/
theorem handleError_stops {error : ActionError} {result : Except IoError Unit}
    {now : SystemTime} (runs : self.phase.running = true)
    (stopped : (self.handleError bincode error result).phase.running = false)
    : self.Unhandled cfg (.error error) result now
        (self.handleError bincode error result) := by
  obtain ⟨error, tk, tcpStream⟩ := error
  cases result with
  | error e => exact held_stops rfl runs rfl (.noted rfl rfl trivial) stopped
  | ok => cases error <;> exact held_stops rfl runs rfl (.noted rfl rfl trivial) stopped

/-- So does every result. -/
theorem handleResult_stops {res : ActionResult} {result : Except IoError Unit}
    {now : SystemTime} (runs : self.phase.running = true)
    (stopped : (self.handleResult cfg bincode res result now).phase.running = false)
    : self.Unhandled cfg res result now
        (self.handleResult cfg bincode res result now) := by
  cases res with
  | ok act => exact handleAction_stops runs stopped
  | error error => exact handleError_stops runs stopped

/-- Every event that ends the loop does so in one of the ways. -/
theorem handleEvent_breaks {tk : Token} {ev : Event} {io : WorkerEventIo}
    (taken : self.handleEvent cfg crates bincode tk ev io = some after)
    (runs : ∀ more, (self.phase.pushResults more).running = true)
    (times : ∀ timeout, (self.phase.pushTimeout tk timeout).running = true)
    (stopped : after.phase.running = false)
    : self.Breaks crates bincode tk ev io after.phase ∧ self.Leaves after := by
  have going {more} (same : after.phase = self.phase.pushResults more) : False := by
    rw [same, runs more] at stopped
    cases stopped
  have waiting {timeout} (same : after.phase = self.phase.pushTimeout tk timeout) : False := by
    rw [same, times timeout] at stopped
    cases stopped
  have still (same : after.phase = self.phase) : False := by
    have runs := runs []
    cases stands : self.phase with
    | returned | panicked => rw [stands] at runs; cases runs
    | _ => rw [same, stands] at stopped; cases stopped
  cases ev with
  | ctrlC =>
      obtain rfl := Option.some.inj taken
      exact (still rfl).elim
  | unixStreamRead =>
      obtain ⟨⟨read, dequeued, unixSocket⟩, -, same⟩ := Option.map_eq_some_iff.mp taken
      simp only at same
      split at same
      · next failed => exact same ▸ ⟨.unixStreamRead failed, .same rfl rfl⟩
      · exact same ▸ ⟨.io, .same rfl rfl⟩
      · exact (still (same ▸ rfl)).elim
  | unixStreamWrite =>
      simp only [handleEvent, unixStreamWrite] at taken
      split at taken
      · split at taken
        · exact Option.some.inj taken ▸ ⟨.io, .same rfl rfl⟩
        · exact (still (Option.some.inj taken ▸ rfl)).elim
      · cases taken
  | newStreamFd fd =>
      obtain rfl := Option.some.inj taken
      unfold newStreamFd at going
      split at going
      · exact (going rfl).elim
      · exact (going rfl).elim
  | serverStreamRead =>
      simp only [handleEvent, serverStreamRead] at taken
      split at taken
      · next missing => exact Option.some.inj taken ▸ ⟨.readingStream missing, .same rfl rfl⟩
      · split at taken
        · split at taken
          · next failed =>
              exact Option.some.inj taken ▸ ⟨.serverStreamRead failed, .noted rfl rfl trivial⟩
          · obtain rfl := Option.some.inj taken
            exact (going rfl).elim
        · cases taken
  | queuedRequests =>
      obtain rfl := Option.some.inj taken
      unfold queuedRequests at still ⊢
      split
      · next failed => exact ⟨.unsent failed, .same rfl rfl⟩
      · next failed => exact ⟨.sendDied failed, .same rfl rfl⟩
      · next sent =>
          rw [sent] at still
          exact (still rfl).elim
  | pollPythonResponses =>
      obtain rfl := Option.some.inj taken
      unfold pollPythonResponses at going ⊢
      split
      · next failed => exact ⟨.untaken failed, .same rfl rfl⟩
      · next failed => exact ⟨.takeDied failed, .same rfl rfl⟩
      · next took =>
          rw [took] at going
          exact (going rfl).elim
  | serverStreamWrite =>
      simp only [handleEvent, serverStreamWrite] at taken
      split at taken
      · next missing => exact Option.some.inj taken ▸ ⟨.writingStream missing, .same rfl rfl⟩
      · next found =>
          split at taken
          · split at taken
            · next failed =>
                exact Option.some.inj taken
                  ▸ ⟨.serverStreamWrite failed, .noted rfl rfl (mem_keys_of_lookup found)⟩
            · obtain rfl := Option.some.inj taken
              exact (going rfl).elim
          · cases taken
  | requestReadTimeout =>
      obtain rfl := Option.some.inj taken
      exact (waiting rfl).elim
  | casketResponseWrite =>
      simp only [handleEvent, casketResponseWrite] at taken
      split at taken
      · next missing => exact Option.some.inj taken ▸ ⟨.casketResponse missing, .same rfl rfl⟩
      · next found =>
          split at taken
          · split at taken
            · next failed =>
                exact Option.some.inj taken
                  ▸ ⟨.casketResponseWrite failed, .noted rfl rfl ⟨_, _, found, rfl⟩⟩
            · obtain rfl := Option.some.inj taken
              exact (going rfl).elim
          · cases taken
  | pythonCodeTimeout =>
      obtain rfl := Option.some.inj taken
      exact (waiting rfl).elim

/-- A tick that fails has failed to poll. -/
theorem tick_error {poll polled' : Poller} {events : List (Token × Event)} {now : SystemTime}
    {popped : List TimerEntry} {polled : Except IoError (List MioEvent)} {e : RuntimeError}
    (ended : poll.tick events now popped polled = .ok (polled', .error e))
    : ∃ reason error, e = .io reason error := by
  unfold Poller.tick at ended
  split at ended
  · split at ended
    · cases ended
    · obtain ⟨-, same⟩ := Prod.mk.inj (Except.ok.inj ended)
      exact ⟨_, _, (Except.error.inj same).symm⟩
  · dsimp only at ended
    split at ended
    · cases ended
    · cases ended

/-- Every step that ends the loop does so in one of the ways. -/
theorem step_stops {input : WorkerInput}
    (taken : self.step cfg crates bincode input = some after)
    (runs : self.phase.running = true) (stopped : after.phase.running = false)
    : self.Stops cfg crates bincode input after.phase ∧ self.Leaves after := by
  have still (same : after.phase = self.phase) : False := by
    rw [same, runs] at stopped
    cases stopped
  unfold step at taken
  split at taken
  case h_1 stands =>
    obtain rfl := Option.some.inj taken
    cases done : self.finished with
    | false => simp [loopTop, done, note, WorkerPhase.running] at stopped
    | true =>
        rw [loopTop, done]
        exact ⟨.finished stands done, .same rfl rfl⟩
  case h_2 stands =>
    split at taken
    · obtain rfl := Option.some.inj taken
      unfold WorkerLoop.tick at stopped ⊢
      split
      · next failed => exact ⟨.tick stands failed, .same rfl rfl⟩
      · next ended =>
          obtain ⟨reason, e, rfl⟩ := tick_error ended
          exact ⟨.io, .same rfl rfl⟩
      · next ticked => rw [ticked] at stopped; cases stopped
    · cases taken
  case h_3 stands =>
    have breaks := handleEvent_breaks taken (fun _ => rfl) (fun _ => rfl) stopped
    exact ⟨.event stands breaks.1, breaks.2.threads, breaks.2.trace⟩
  case h_4 => obtain rfl := Option.some.inj taken; cases stopped
  case h_5 => obtain rfl := Option.some.inj taken; cases stopped
  case h_6 =>
    obtain rfl := Option.some.inj taken
    unfold handleTimeout at stopped ⊢
    split
    · split
      · next missing => rw [missing] at stopped; cases stopped
      · next found =>
          rw [found] at stopped
          split
          · exact ⟨.io, .same rfl rfl⟩
          · cases stopped
    · split
      · next missing => rw [missing] at stopped; cases stopped
      · next found => rw [found] at stopped; cases stopped
  case h_7 => obtain rfl := Option.some.inj taken; cases stopped
  case h_8 => obtain rfl := Option.some.inj taken; cases stopped
  case h_9 result stands =>
    obtain rfl := Option.some.inj taken
    cases result with
    | error e => exact ⟨.io, .same rfl rfl⟩
    | ok => cases stopped
  case h_10 =>
    obtain ⟨⟨res, phase⟩, popped, rfl⟩ := Option.map_eq_some_iff.mp taken
    have spec := WorkerPhase.nextResult_spec popped
    obtain ⟨panic, ends, misses, leaves⟩ := handleResult_stops spec.2.2.2.2 stopped
    dsimp only at ends ⊢
    rw [ends]
    exact ⟨.result popped misses, leaves.threads, leaves.trace⟩
  case h_11 =>
    obtain rfl := Option.some.inj taken
    exact (still rfl).elim
  case h_12 =>
    obtain ⟨pool, -, rfl⟩ := Option.map_eq_some_iff.mp taken
    exact (still rfl).elim
  case h_13 =>
    obtain ⟨pool, -, rfl⟩ := Option.map_eq_some_iff.mp taken
    exact (still rfl).elim
  case h_14 =>
    obtain rfl := Option.some.inj taken
    exact (still rfl).elim
  case h_15 => cases taken

/-- A loop that has ended keeps its phase, its locals and its trace. -/
theorem step_ended {input : WorkerInput}
    (taken : self.step cfg crates bincode input = some after)
    (ended : self.phase.running = false)
    : after.phase = self.phase ∧ after.worker = self.worker ∧ after.trace = self.trace := by
  unfold step at taken
  split at taken
  case h_10 =>
    obtain ⟨⟨res, phase⟩, popped, -⟩ := Option.map_eq_some_iff.mp taken
    cases stands : self.phase with
    | returned | panicked => rw [stands] at popped; cases popped
    | _ => rw [stands] at ended; cases ended
  case h_11 => obtain rfl := Option.some.inj taken; exact ⟨rfl, rfl, rfl⟩
  case h_12 =>
    obtain ⟨pool, -, rfl⟩ := Option.map_eq_some_iff.mp taken
    exact ⟨rfl, rfl, rfl⟩
  case h_13 =>
    obtain ⟨pool, -, rfl⟩ := Option.map_eq_some_iff.mp taken
    exact ⟨rfl, rfl, rfl⟩
  case h_14 => obtain rfl := Option.some.inj taken; exact ⟨rfl, rfl, rfl⟩
  case h_15 => cases taken
  all_goals
    rw [‹self.phase = _›] at ended
    cases ended

/-- The step that ended a run. -/
structure Ended (cfg : Config) (crates : Crates) (bincode : Bincode)
    (guard : WorkerLoop → WorkerInput → Prop) (before : WorkerLoop) (input : WorkerInput)
    (state : WorkerLoop)
    : Prop where
  run : Reach (step cfg crates bincode) guard (.new cfg) before
  allowed : guard before input
  runs : before.phase.running = true
  stops : before.Stops cfg crates bincode input state.phase
  leaves : before.Leaves state
  finished
    : state.phase = .returned (.ok ()) →
      state.worker = before.worker ∧ state.trace = before.trace

/-- A run whose loop has ended has a last step that ended it, by induction on the run. -/
theorem stopped_reach {guard : WorkerLoop → WorkerInput → Prop} {state : WorkerLoop}
    (run : Reach (step cfg crates bincode) guard (.new cfg) state)
    (stopped : state.phase.running = false)
    : ∃ before input, Ended cfg crates bincode guard before input state := by
  induction run with
  | start => cases stopped
  | @next before input after earlier allowed taken ih =>
      cases runs : before.phase.running with
      | true =>
          obtain ⟨stops, leaves⟩ := step_stops taken runs stopped
          refine ⟨before, input, earlier, allowed, runs, stops, leaves, ?_⟩
          intro ok
          rw [ok] at stops
          cases stops with
          | finished stands done =>
              simp only [step, stands, loopTop, done, if_true] at taken
              obtain rfl := Option.some.inj taken
              exact ⟨rfl, rfl⟩
          | event _ breaks => cases breaks
      | false =>
          obtain ⟨phase, worker, trace⟩ := step_ended taken runs
          obtain ⟨first, input, ended⟩ := ih runs
          refine ⟨first, input, ended.run, ended.allowed, ended.runs, phase ▸ ended.stops, ?_, ?_⟩
          · exact ended.leaves.then (congrArg Worker.pythonThreads worker) trace
          · rw [phase, worker, trace]
            exact ended.finished

end WorkerLoop
end Casket
