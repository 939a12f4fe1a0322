import Casket.Msgs.Ends
import Casket.Service

/-! What a worker says to the server: each step of its loop is a run of calls at its end of
the link, and the streams it has received are those the link delivered.
-/

namespace Casket

open Lib

/-- The stream an effect hands to the worker, as the link delivered it. -/
def WorkerEffect.received? : WorkerEffect → Option (Token × RawFd)
  | .received tk fd => some (tk, fd)
  | _ => none

namespace WorkerLoop

open WorkerEffect

/-- The streams received so far, with their tokens. -/
def received (trace : List WorkerEffect) : List (Token × RawFd) :=
  trace.filterMap received?

/-- The worker stands at its end of a link. -/
structure AtLink (state : WorkerLoop) (link : Link) : Prop where
  worker : link.worker = state.worker.msgBuf
  socket : link.socket = state.unixSocket
  delivered : link.delivered = received state.trace
  calm : link.panicked = none

/-- Nothing is said. -/
structure Silent (before after : WorkerLoop) : Prop where
  msgBuf : after.worker.msgBuf = before.worker.msgBuf
  socket : after.unixSocket = before.unixSocket
  received : received after.trace = received before.trace

/-- What a step says: nothing, one call, or the loop that takes the waiting descriptors. A
message that cannot be decoded ends the loop.
-/
inductive Talks (bincode : Bincode) (self after : WorkerLoop) : Prop
  | silent (still : self.Silent after)
  | answers (op : LinkOp) (response : Response) (side : op.byWorker = true)
    (answer
      : ∀ link : Link,
          link.worker = self.worker.msgBuf →
          link.answer bincode op = some (.ok (after.worker.msgBuf, response)))
    (socket : after.unixSocket = self.unixSocket)
    (received : WorkerLoop.received after.trace = WorkerLoop.received self.trace)
    (sent : response ∈ responses after.trace)
  | reads (ready : Nat) (read : Except IoError Nat) (result : Except IoError Bytes)
    (dequeued : List RawFd) (slices : List Bytes)
    (reads
      : self.unixSocket.workerReads self.worker.msgBuf.readRoom ready read
        = some (result, dequeued, after.unixSocket))
    (decoded
      : self.worker.msgBuf.readUnixStream bincode result dequeued
        = .ok (after.worker.msgBuf, .ok slices))
    (received : WorkerLoop.received after.trace = WorkerLoop.received self.trace)
  | garbled (ready : Nat) (read : Except IoError Nat) (result : Except IoError Bytes)
    (dequeued : List RawFd) (socket : UnixSocket) (panic : Panic)
    (reads
      : self.unixSocket.workerReads self.worker.msgBuf.readRoom ready read
        = some (result, dequeued, socket))
    (failed : self.worker.msgBuf.readUnixStream bincode result dequeued = .error panic)
  | writes (write : Except IoError Nat) (written : Except IoError Bytes)
    (wrote
      : self.worker.msgBuf.writeUnixStream write = (after.worker.msgBuf, written))
    (socket : after.unixSocket = self.unixSocket.workerWrote written)
    (received : WorkerLoop.received after.trace = WorkerLoop.received self.trace)
  | pairs (turns : Nat) (streams : List (Token × RawFd))
    (taken : takeStreamFds turns self.worker.msgBuf = (streams, after.worker.msgBuf))
    (socket : after.unixSocket = self.unixSocket)
    (received
      : WorkerLoop.received after.trace = WorkerLoop.received self.trace ++ streams)

variable {cfg : Config} {crates : Crates} {bincode : Bincode} {self middle after : WorkerLoop}
  {input : WorkerInput}

-----------------------------------------------------------------------------------------
-- What each part of the loop says
-----------------------------------------------------------------------------------------

theorem Silent.refl (self : WorkerLoop) : self.Silent self := ⟨rfl, rfl, rfl⟩

/-- What is said after a silence is said by the step. -/
theorem Silent.then (first : self.Silent middle) (talks : middle.Talks bincode after)
    : self.Talks bincode after := by
  obtain ⟨msgBuf, socket, trace⟩ := first
  cases talks with
  | silent still =>
      exact .silent
        ⟨still.msgBuf.trans msgBuf, still.socket.trans socket, still.received.trans trace⟩
  | answers op response side answer at_ received sent =>
      rw [msgBuf] at answer
      exact .answers op response side answer (at_.trans socket) (received.trans trace) sent
  | reads ready read result dequeued slices reads decoded received =>
      rw [msgBuf, socket] at reads
      rw [msgBuf] at decoded
      exact .reads ready read result dequeued slices reads decoded (received.trans trace)
  | garbled ready read result dequeued left panic reads failed =>
      rw [msgBuf, socket] at reads
      rw [msgBuf] at failed
      exact .garbled ready read result dequeued left panic reads failed
  | writes write written wrote at_ received =>
      rw [msgBuf] at wrote
      rw [socket] at at_
      exact .writes write written wrote at_ (received.trans trace)
  | pairs turns streams taken at_ received =>
      rw [msgBuf] at taken
      rw [trace] at received
      exact .pairs turns streams taken (at_.trans socket) received

/-- Effects that hand over no stream. -/
theorem received_note (self : WorkerLoop) {effects : List WorkerEffect}
    (none_ : ∀ effect ∈ effects, effect.received? = none)
    : received (self.note effects).trace = received self.trace := by
  rw [note, received, List.filterMap_append, List.filterMap_eq_nil_iff.mpr none_]
  exact List.append_nil _

theorem received_noted (self : WorkerLoop) (effect : WorkerEffect)
    (none_ : effect.received? = none)
    : received (self.note [effect]).trace = received self.trace :=
  received_note self fun _ member => List.mem_singleton.mp member ▸ none_

theorem received_replacing (tk : Token) (tcpStream : Option TcpStream)
    : ∀ effect ∈ replacing tk tcpStream, effect.received? = none := by
  cases tcpStream with
  | none => exact nofun
  | some tcpStream =>
      intro effect member
      obtain rfl := List.mem_singleton.mp member
      rfl

/-- An answering call, unless its token is unknown. -/
theorem answer_talks {ending : Ending} (op : LinkOp) (side : op.byWorker = true)
    {responded : Except Panic (WorkerMsgBuffer × Response)} {gone : WorkerEffect}
    (answer
      : ∀ link : Link,
          link.worker = self.worker.msgBuf →
          link.answer bincode op = some responded)
    (gives : gone.received? = none)
    : self.Talks bincode (self.answer ending responded gone) := by
  cases responded with
  | error panic => exact .silent ⟨rfl, rfl, rfl⟩
  | ok told =>
      refine .answers op told.2 side answer rfl ?_ ?_
      · refine received_note _ ?_
        intro effect member
        rcases List.mem_cons.mp member with rfl | last
        · rfl
        · obtain rfl := List.mem_singleton.mp last
          exact gives
      · refine List.mem_filterMap.mpr ⟨.answered ending told.2, ?_, rfl⟩
        exact List.mem_append_right _ List.mem_cons_self

/-- A failed registration is answered. -/
theorem regError_talks (self : WorkerLoop) (bincode : Bincode) (tk : Token)
    (tcpStream : TcpStream) (e : IoError)
    : self.Talks bincode (self.regError bincode tk tcpStream e) := by
  have dropped : self.Silent (self.dropped tk) := ⟨rfl, rfl, rfl⟩
  refine dropped.then (answer_talks (.respStreamRegError tk e) rfl ?_ rfl)
  intro link same
  simp only [Link.answer, same]
  rfl

/-- A call on the poller says what is done with the stream. -/
theorem called_talks {tk : Token} {tcpStream : TcpStream} {poll : Poller}
    {result : Except IoError Unit} {next : WorkerLoop → WorkerLoop}
    (goes : (self.withPoll poll).Talks bincode (next (self.withPoll poll)))
    : self.Talks bincode (self.called bincode tk tcpStream poll result next) := by
  have polled : self.Silent (self.withPoll poll) := ⟨rfl, rfl, rfl⟩
  cases result with
  | error e => exact polled.then (regError_talks _ bincode tk tcpStream e)
  | ok => exact polled.then goes

/-- A stream that is done with is answered. -/
theorem doneOk_talks (self : WorkerLoop) (bincode : Bincode) (ending : Ending) (tk : Token)
    (tcpStream : TcpStream) (keepAlive : Bool)
    : self.Talks bincode (self.doneOk bincode ending tk tcpStream keepAlive) := by
  refine answer_talks (.respStreamDoneOk tk tcpStream.fd keepAlive) rfl ?_ rfl
  intro link same
  simp only [Link.answer, same]

/-- A timer says nothing. -/
theorem armTimer_talks {tk : Token} {time : SystemTime} {timeout : Duration} {event : Event}
    {next : WorkerLoop → WorkerLoop}
    (goes : ∀ poll, (self.withPoll poll).Silent (next (self.withPoll poll)))
    : self.Talks bincode (self.armTimer tk time timeout event next) := by
  unfold armTimer
  split
  · exact .silent ⟨rfl, rfl, rfl⟩
  · next time _ =>
      have armed : self.Silent (self.withPoll (self.worker.poll.timerEvent tk time event)) :=
        ⟨rfl, rfl, rfl⟩
      exact armed.then (.silent (goes _))

/-- Insertions say nothing. -/
theorem insertReading_silent (self : WorkerLoop) (tk : Token) (tcpStream : TcpStream)
    (reader : Reader)
    : self.Silent (self.insertReading tk tcpStream reader) :=
  ⟨rfl, rfl, received_note _ (received_replacing _ _)⟩

theorem insertWriting_silent (self : WorkerLoop) (tk : Token) (tcpStream : TcpStream)
    (writer : Writer)
    : self.Silent (self.insertWriting tk tcpStream writer) :=
  ⟨rfl, rfl, received_note _ (received_replacing _ _)⟩

theorem insertCasket_silent (self : WorkerLoop) (tk : Token) (tcpStream : TcpStream)
    (casketResp : CasketResponse)
    : self.Silent (self.insertCasket tk tcpStream casketResp) :=
  ⟨rfl, rfl, received_note _ (received_replacing _ _)⟩

/-- A line of the log says nothing to the server. -/
theorem logged_silent (self : WorkerLoop) (tk : Token) (message : String)
    : self.Silent (self.note [.logged tk message]) :=
  ⟨rfl, rfl, received_noted self _ rfl⟩

/-- One action. Witness: one case for each. -/
theorem handleAction_talks (self : WorkerLoop) (cfg : Config) (bincode : Bincode)
    (act : Action) (result : Except IoError Unit) (now : SystemTime)
    : self.Talks bincode (self.handleAction cfg bincode act result now) := by
  cases act with
  | newServerRequest tk tcpStream =>
      simp only [handleAction]
      refine called_talks ?_
      exact armTimer_talks fun _ => insertReading_silent _ tk tcpStream .new
  | serverContinueRead tk reader tcpStream =>
      simp only [handleAction]
      refine called_talks ?_
      exact .silent (insertReading_silent _ tk tcpStream reader)
  | serverReadDone tk httpReq tcpStream =>
      simp only [handleAction]
      refine called_talks ?_
      exact .silent ⟨rfl, rfl, received_note _ (received_replacing _ _)⟩
  | serverStreamEOF tk tcpStream =>
      simp only [handleAction]
      refine called_talks ?_
      exact doneOk_talks _ bincode .streamEOF tk tcpStream false
  | serverNewResponse tk httpResp =>
      simp only [handleAction]
      split
      · exact .silent ⟨rfl, rfl, rfl⟩
      · next tcpStream _ =>
          have erased
              : self.Silent
                  { self with
                    worker :=
                      { self.worker with
                        serverPendingStreams :=
                          self.worker.serverPendingStreams.erase tk } } :=
            ⟨rfl, rfl, rfl⟩
          refine erased.then (called_talks ?_)
          exact .silent (insertWriting_silent _ tk tcpStream (.new httpResp))
  | serverContinueWrite tk writer tcpStream =>
      simp only [handleAction]
      refine called_talks ?_
      exact .silent (insertWriting_silent _ tk tcpStream writer)
  | serverDoneWrite tk httpResp tcpStream =>
      simp only [handleAction]
      refine (logged_silent self tk _).then (called_talks ?_)
      exact doneOk_talks _ bincode .doneWrite tk tcpStream httpResp.keepAlive
  | serverCasketResponseNew tk tcpStream casketResp =>
      simp only [handleAction]
      refine called_talks ?_
      exact .silent (insertCasket_silent _ tk tcpStream casketResp)
  | serverCasketResponseContinue tk tcpStream casketResp =>
      simp only [handleAction]
      refine called_talks ?_
      exact .silent (insertCasket_silent _ tk tcpStream casketResp)
  | serverCasketResponseDone tk tcpStream casketResp =>
      simp only [handleAction]
      refine called_talks ?_
      refine (logged_silent _ tk "casket sent error http response").then ?_
      exact doneOk_talks _ bincode .casketResponse tk tcpStream false
  | serverPythonCodeTimeoutNew tk st => exact armTimer_talks fun _ => .refl _

/-- One error. -/
theorem handleError_talks (self : WorkerLoop) (bincode : Bincode) (error : ActionError)
    (result : Except IoError Unit)
    : self.Talks bincode (self.handleError bincode error result) := by
  obtain ⟨error, tk, tcpStream⟩ := error
  refine (logged_silent self tk _).then (called_talks ?_)
  have dropped (poll : Poller)
      : ((self.note [.logged tk (errorLine error)]).withPoll poll).Silent
          (((self.note [.logged tk (errorLine error)]).withPoll poll).dropped tk) :=
    ⟨rfl, rfl, rfl⟩
  cases error with
  | io reason e =>
      refine (dropped _).then (answer_talks (.respIoError tk e) rfl ?_ rfl)
      intro link same
      simp only [Link.answer, same]
      rfl
  | headerParse _ | badValue _ =>
      refine (dropped _).then (answer_talks (.respBadClient tk) rfl ?_ rfl)
      intro link same
      simp only [Link.answer, same]
      rfl

theorem handleResult_talks (self : WorkerLoop) (cfg : Config) (bincode : Bincode)
    (res : ActionResult) (result : Except IoError Unit) (now : SystemTime)
    : self.Talks bincode (self.handleResult cfg bincode res result now) := by
  cases res with
  | ok act => exact handleAction_talks self cfg bincode act result now
  | error error => exact handleError_talks self bincode error result

/-- One event: only those of the unix stream say something. Witness: one case for each. -/
theorem handleEvent_talks {tk : Token} {ev : Event} {io : WorkerEventIo}
    (taken : self.handleEvent cfg crates bincode tk ev io = some after)
    : self.Talks bincode after := by
  cases ev with
  | ctrlC => exact Option.some.inj taken ▸ .silent ⟨rfl, rfl, rfl⟩
  | unixStreamRead =>
      obtain ⟨⟨read, dequeued, unixSocket⟩, reads, same⟩ := Option.map_eq_some_iff.mp taken
      dsimp only at same
      split at same
      · next panic failed => exact .garbled _ _ _ _ _ panic reads failed
      · exact same ▸ .silent ⟨rfl, rfl, rfl⟩
      · next decoded =>
          subst same
          exact .reads _ _ _ _ _ reads decoded (received_noted _ _ rfl)
  | unixStreamWrite =>
      simp only [handleEvent, unixStreamWrite] at taken
      split at taken
      · split at taken
        · exact Option.some.inj taken ▸ .silent ⟨rfl, rfl, rfl⟩
        · next written same =>
            obtain rfl := Option.some.inj taken
            refine .writes io.write (.ok written) (Prod.ext rfl same) ?_ (received_noted _ _ rfl)
            rw [note, ← same]
      · cases taken
  | newStreamFd fd =>
      obtain rfl := Option.some.inj taken
      unfold newStreamFd
      split <;> exact .silent ⟨rfl, rfl, rfl⟩
  | serverStreamRead =>
      simp only [handleEvent, serverStreamRead] at taken
      split at taken
      · exact Option.some.inj taken ▸ .silent ⟨rfl, rfl, rfl⟩
      · split at taken
        · have silent := received_noted self (.read tk (io.read.toOption.getD []).length) rfl
          split at taken <;> exact Option.some.inj taken ▸ .silent ⟨rfl, rfl, silent⟩
        · cases taken
  | queuedRequests =>
      obtain rfl := Option.some.inj taken
      unfold queuedRequests
      split
      · exact .silent ⟨rfl, rfl, rfl⟩
      · exact .silent ⟨rfl, rfl, rfl⟩
      · refine .silent ⟨rfl, rfl, received_note _ ?_⟩
        exact List.forall_mem_map.mpr fun _ _ => rfl
  | pollPythonResponses =>
      obtain rfl := Option.some.inj taken
      unfold pollPythonResponses
      split
      · exact .silent ⟨rfl, rfl, rfl⟩
      · exact .silent ⟨rfl, rfl, rfl⟩
      · refine .silent ⟨rfl, rfl, received_note self ?_⟩
        intro effect member
        rcases List.mem_append.mp member with taken | delivered
        · obtain ⟨_, -, rfl⟩ := List.mem_map.mp taken
          rfl
        · obtain ⟨_, -, rfl⟩ := List.mem_map.mp delivered
          rfl
  | serverStreamWrite =>
      simp only [handleEvent, serverStreamWrite] at taken
      split at taken
      · exact Option.some.inj taken ▸ .silent ⟨rfl, rfl, rfl⟩
      · split at taken
        · have silent := received_noted self (.wrote tk none (io.write.toOption.getD 0)) rfl
          split at taken <;> exact Option.some.inj taken ▸ .silent ⟨rfl, rfl, silent⟩
        · cases taken
  | requestReadTimeout => exact Option.some.inj taken ▸ .silent ⟨rfl, rfl, rfl⟩
  | casketResponseWrite =>
      simp only [handleEvent, casketResponseWrite] at taken
      split at taken
      · exact Option.some.inj taken ▸ .silent ⟨rfl, rfl, rfl⟩
      · next tcpStream casketResp _ =>
        split at taken
        · have silent :=
            received_noted self
              (.wrote tk (some casketResp.code) (io.write.toOption.getD 0)) rfl
          split at taken <;> exact Option.some.inj taken ▸ .silent ⟨rfl, rfl, silent⟩
        · cases taken
  | pythonCodeTimeout => exact Option.some.inj taken ▸ .silent ⟨rfl, rfl, rfl⟩

/-- One timeout. -/
theorem handleTimeout_silent (self : WorkerLoop) (tk : Token) (timeout : Timeout)
    (result : Except IoError Unit)
    : self.Silent (self.handleTimeout tk timeout result) := by
  cases timeout with
  | requestRead =>
      simp only [handleTimeout]
      split
      · exact .refl self
      · split <;> exact ⟨rfl, rfl, rfl⟩
  | pythonCode =>
      simp only [handleTimeout]
      split
      · exact .refl self
      · exact ⟨rfl, rfl, received_noted self (.timedOut tk) rfl⟩

/-- The top of the loop takes the waiting descriptors, unless the loop ends. -/
theorem loopTop_talks (self : WorkerLoop) (bincode : Bincode)
    : self.Talks bincode self.loopTop := by
  unfold loopTop
  split
  · exact .silent ⟨rfl, rfl, rfl⟩
  · refine .pairs _ _ rfl rfl ?_
    change received (self.trace ++ _) = received self.trace ++ _
    rw [received, List.filterMap_append, received, List.filterMap_map]
    exact congrArg _ (List.filterMap_some ..)

/-- Every step of the worker, other than what the other end does to its socket. -/
theorem step_talks (taken : self.step cfg crates bincode input = some after)
    (own : input.own = true)
    : self.Talks bincode after := by
  unfold step at taken
  split at taken
  case h_1 => exact Option.some.inj taken ▸ loopTop_talks self bincode
  case h_2 =>
    split at taken
    · obtain rfl := Option.some.inj taken
      unfold WorkerLoop.tick
      split <;> exact .silent ⟨rfl, rfl, rfl⟩
    · cases taken
  case h_3 evs tmos results io stands =>
    have popped : self.Silent { self with phase := .events evs tmos results } :=
      ⟨rfl, rfl, rfl⟩
    exact popped.then (handleEvent_talks taken)
  case h_6 tmos results result stands =>
    obtain rfl := Option.some.inj taken
    have popped : self.Silent { self with phase := .timeouts tmos results } := ⟨rfl, rfl, rfl⟩
    exact popped.then (.silent (handleTimeout_silent _ _ _ _))
  case h_9 =>
    obtain rfl := Option.some.inj taken
    unfold reregisterUnix
    dsimp only
    split <;> exact .silent ⟨rfl, rfl, rfl⟩
  case h_10 =>
    obtain ⟨⟨res, phase⟩, -, rfl⟩ := Option.map_eq_some_iff.mp taken
    have popped : self.Silent { self with phase } := ⟨rfl, rfl, rfl⟩
    exact popped.then (handleResult_talks _ cfg bincode res _ _)
  case h_11 => cases own
  case h_12 =>
    obtain ⟨pool, -, rfl⟩ := Option.map_eq_some_iff.mp taken
    exact .silent ⟨rfl, rfl, rfl⟩
  case h_13 =>
    obtain ⟨pool, -, rfl⟩ := Option.map_eq_some_iff.mp taken
    exact .silent ⟨rfl, rfl, rfl⟩
  case h_15 => cases taken
  all_goals exact Option.some.inj taken ▸ .silent ⟨rfl, rfl, rfl⟩

-----------------------------------------------------------------------------------------
-- What is said is a run of the link
-----------------------------------------------------------------------------------------

/-- Taking the waiting descriptors is one call for each. Witness: induction on the turns. -/
theorem takeStreamFds_calls (turns : Nat) {msgBuf after : WorkerMsgBuffer} {link : Link}
    {streams : List (Token × RawFd)} (worker : link.worker = msgBuf)
    (calm : link.panicked = none) (taken : takeStreamFds turns msgBuf = (streams, after))
    : ∃ next : Link,
        link.Calls bincode true next
        ∧ next.worker = after
        ∧ next.socket = link.socket
        ∧ next.delivered = link.delivered ++ streams
        ∧ next.panicked = none := by
  induction turns generalizing msgBuf link streams with
  | zero =>
      obtain ⟨rfl, rfl⟩ := Prod.mk.inj taken
      exact ⟨link, .start, worker, rfl, (List.append_nil _).symm, calm⟩
  | succ turns ih =>
      rw [takeStreamFds] at taken
      cases paired : msgBuf.nextStreamFd with
      | none =>
          rw [paired] at taken
          obtain ⟨rfl, rfl⟩ := Prod.mk.inj taken
          exact ⟨link, .start, worker, rfl, (List.append_nil _).symm, calm⟩
      | some pair =>
          obtain ⟨stream, rest⟩ := pair
          rw [paired] at taken
          obtain ⟨rfl, left⟩ := Prod.mk.inj taken
          have called
              : link.step bincode .nextStreamFd
                = some
                    { link with
                      worker := rest
                      delivered := link.delivered ++ [stream] } := by
            rw [Link.step_transfer calm rfl, Link.transfer, worker, paired]
          have later
              : ({ link with worker := rest, delivered := link.delivered ++ [stream] }
                  : Link).worker
                = rest :=
            rfl
          obtain ⟨next, calls, same, socket, delivered, still⟩ :=
            ih later calm (Prod.ext rfl left)
          refine ⟨next, ?_, same, socket, ?_, still⟩
          · exact (Link.Calls.one rfl (Link.short_silent rfl) called).trans calls
          · rw [delivered, List.append_assoc]
            rfl

/-- What a step says is a run of calls at the worker's end, where no message is garbled. -/
theorem Talks.calls (talks : self.Talks bincode after) {link : Link} {box : Mailbox}
    (stands : self.AtLink link) (balanced : link.Balanced bincode box)
    (short
      : ∀ response ∈ responses after.trace,
          (bincode.serializeResponse response).length < 2 ^ 32)
    : ∃ next : Link, link.Calls bincode true next ∧ after.AtLink next := by
  obtain ⟨worker, socket, delivered, calm⟩ := stands
  have goes : ¬ link.panicked.isSome = true := by simp [calm]
  cases talks with
  | silent still =>
      exact ⟨link, .start, worker.trans still.msgBuf.symm, socket.trans still.socket.symm,
        delivered.trans still.received.symm, calm⟩
  | answers op response side answer at_ received sent =>
      have answered := answer link worker
      have called
          : link.step bincode op
            = some
                { link with
                  worker := after.worker.msgBuf
                  answered := link.answered ++ [response] } := by
        simp only [Link.step, if_neg goes, answered]
      refine ⟨_, Link.Calls.one side ?_ called, rfl, socket.trans at_.symm,
        delivered.trans received.symm, calm⟩
      intro told said sent' ok
      rw [answered] at said
      obtain rfl := Option.some.inj said
      obtain rfl := Option.some.inj ok
      exact short response sent
  | reads ready read result dequeued slices reads decoded received =>
      rw [← worker, ← socket] at reads
      rw [← worker] at decoded
      have called
          : link.step bincode (.workerRead ready read)
            = some
                { link with
                  worker := after.worker.msgBuf
                  socket := after.unixSocket
                  requestSlices := link.requestSlices ++ slices } := by
        rw [Link.step_transfer calm rfl, Link.transfer, reads, Option.map_some]
        dsimp only
        rw [decoded]
        rfl
      exact ⟨_, Link.Calls.one rfl (Link.short_silent rfl) called, rfl, rfl,
        delivered.trans received.symm, calm⟩
  | garbled ready read result dequeued left panic reads failed =>
      rw [← worker, ← socket] at reads
      rw [← worker] at failed
      obtain ⟨_, _, _, _, _, _, _, decoded, -⟩ := balanced.represents.workerRead reads
      rw [failed] at decoded
      cases decoded
  | writes write written wrote at_ received =>
      rw [← worker] at wrote
      have called
          : link.step bincode (.workerWrite write)
            = some
                { link with
                  worker := after.worker.msgBuf
                  socket := link.socket.workerWrote written } := by
        rw [Link.step_transfer calm rfl, Link.transfer, wrote]
      refine ⟨_, Link.Calls.one rfl (Link.short_silent rfl) called, rfl, ?_,
        delivered.trans received.symm, calm⟩
      rw [at_, socket]
  | pairs turns streams taken at_ received =>
      obtain ⟨next, calls, same, still, more, calm⟩ :=
        @takeStreamFds_calls bincode turns _ _ _ _ worker calm taken
      refine ⟨next, calls, same, still.trans (socket.trans at_.symm), ?_, calm⟩
      rw [more, delivered, received]

end WorkerLoop
end Casket
