import Casket.Msgs.Transfer
import Casket.Worker.Polling
import Casket.Worker.Requests
import Casket.Worker.Steps

/-! Every stream the worker was handed is in one place until it is given up: a buffer of the
loop or one of the four maps. A step moves streams in few ways, and from these follows what
a whole run conserves.
-/

namespace Casket

open Lib

-----------------------------------------------------------------------------------------
-- The wiring of the poller
-----------------------------------------------------------------------------------------

/-- Only streams have events registered for readiness, and timers only time out. -/
structure Poller.Wired (poll : Poller) : Prop where
  read
    : ∀ {tk ev}, poll.eventsRegRead.lookup tk = some ev →
        ev = .unixStreamRead ∨ ev = .serverStreamRead
  write
    : ∀ {tk ev}, poll.eventsRegWrite.lookup tk = some ev →
        ev = .unixStreamWrite ∨ ev = .serverStreamWrite ∨ ev = .casketResponseWrite
  timerq
    : ∀ entry ∈ poll.timerq,
        entry.event = .requestReadTimeout ∨ entry.event = .pythonCodeTimeout

namespace Poller.Wired

variable {poll after : Poller}

/-- An insertion of an event keeps what holds of the events. -/
theorem lookup_insert {map : TokenMap Event} {tk : Token} {ev : Event}
    {proper : Event → Prop} (all : ∀ {tk ev}, map.lookup tk = some ev → proper ev)
    (is : proper ev) {other : Token} {found : Event}
    (looked : (map.insert tk ev).lookup other = some found)
    : proper found := by
  by_cases same : other = tk
  · subst same
    rw [AList.lookup_insert] at looked
    exact Option.some.inj looked ▸ is
  · rw [AList.lookup_insert_ne same] at looked
    exact all looked

theorem insertRead (wired : poll.Wired) {tk : Token} {ev : Event}
    (is : ev = .unixStreamRead ∨ ev = .serverStreamRead)
    (read : after.eventsRegRead = poll.eventsRegRead.insert tk ev)
    (write : after.eventsRegWrite = poll.eventsRegWrite) (timerq : after.timerq = poll.timerq)
    : after.Wired where
  read looked := lookup_insert wired.read is (read ▸ looked)
  write looked := wired.write (write ▸ looked)
  timerq entry member := wired.timerq entry (timerq ▸ member)

theorem insertWrite (wired : poll.Wired) {tk : Token} {ev : Event}
    (is : ev = .unixStreamWrite ∨ ev = .serverStreamWrite ∨ ev = .casketResponseWrite)
    (read : after.eventsRegRead = poll.eventsRegRead)
    (write : after.eventsRegWrite = poll.eventsRegWrite.insert tk ev)
    (timerq : after.timerq = poll.timerq)
    : after.Wired where
  read looked := wired.read (read ▸ looked)
  write looked := lookup_insert wired.write is (write ▸ looked)
  timerq entry member := wired.timerq entry (timerq ▸ member)

theorem same (wired : poll.Wired) (read : after.eventsRegRead = poll.eventsRegRead)
    (write : after.eventsRegWrite = poll.eventsRegWrite) (timerq : after.timerq = poll.timerq)
    : after.Wired where
  read looked := wired.read (read ▸ looked)
  write looked := wired.write (write ▸ looked)
  timerq entry member := wired.timerq entry (timerq ▸ member)

theorem timerEvent (wired : poll.Wired) {tk : Token} {timeout : SystemTime} {event : Event}
    (is : event = .requestReadTimeout ∨ event = .pythonCodeTimeout)
    : (poll.timerEvent tk timeout event).Wired where
  read := wired.read
  write := wired.write
  timerq := by
    intro entry member
    rcases List.mem_append.mp member with old | new
    · exact wired.timerq entry old
    · obtain rfl := List.mem_singleton.mp new
      exact is

/-- What a failed or a deregistering call leaves is proper. -/
theorem forgets (wired : poll.Wired) {tk : Token} (forgets : poll.Forgets after tk)
    : after.Wired := by
  rcases forgets.read with read | read
  · rcases forgets.write with write | write | write
    · exact wired.same read write forgets.timerq
    · exact wired.insertWrite (.inr (.inl rfl)) read write forgets.timerq
    · exact wired.insertWrite (.inr (.inr rfl)) read write forgets.timerq
  · have middle : ({ poll with eventsRegRead := after.eventsRegRead } : Poller).Wired :=
      wired.insertRead (.inr rfl) read rfl rfl
    rcases forgets.write with write | write | write
    · exact middle.same rfl write forgets.timerq
    · exact middle.insertWrite (.inr (.inl rfl)) rfl write forgets.timerq
    · exact middle.insertWrite (.inr (.inr rfl)) rfl write forgets.timerq

end Poller.Wired

namespace WorkerLoop

variable {cfg : Config} {crates : Crates} {bincode : Bincode} {self after : WorkerLoop}
  {input : WorkerInput}

/-- A handled result registers the events of its own stream. -/
theorem Settles.wired {res : ActionResult} {result : Except IoError Unit}
    (settles : self.Settles bincode res result after) (wired : self.worker.poll.Wired)
    : after.worker.poll.Wired := by
  cases settles with
  | answered _ _ _ forgets => exact wired.forgets forgets
  | lost _ forgets => exact wired.forgets forgets
  | accepted =>
      refine Poller.Wired.timerEvent ?_ (.inl rfl)
      exact wired.insertRead (.inr rfl) rfl rfl rfl
  | reading => exact wired.insertRead (.inr rfl) rfl rfl rfl
  | queued => exact wired.same rfl rfl rfl
  | responding => exact wired.insertWrite (.inr (.inl rfl)) rfl rfl rfl
  | writing => exact wired.insertWrite (.inr (.inl rfl)) rfl rfl rfl
  | casket => exact wired.insertWrite (.inr (.inr rfl)) rfl rfl rfl
  | started => exact wired.timerEvent (.inr rfl)

/-- No event touches the poller. -/
theorem Delivers.poll {tk : Token} {ev : Event}
    (delivers : self.Delivers cfg bincode tk ev after)
    : after.worker.poll = self.worker.poll := by
  cases delivers <;> rfl

/-- Neither does the top of the loop. -/
theorem loopTop_poll (self : WorkerLoop) : self.loopTop.worker.poll = self.worker.poll := by
  unfold loopTop
  split <;> rfl

/-- The wiring of the poller is kept by every step. -/
theorem Takes.wired (takes : self.Takes cfg bincode input after)
    (wired : self.worker.poll.Wired)
    : after.worker.poll.Wired := by
  cases takes with
  | top => exact loopTop_poll self ▸ wired
  | tick _ _ ticked =>
      obtain ⟨reads, writes, signals, -, draws, -⟩ := Poller.tick_delivers ticked
      exact
        { read := fun looked => wired.read (draws.reads.kept looked)
          write := fun looked => wired.write (draws.writes.kept looked)
          timerq := fun entry member =>
            wired.timerq entry (List.mem_filter.mp (draws.timerq ▸ member)).1 }
  | event _ delivers => exact delivers.poll ▸ wired
  | timeout _ expires =>
      cases expires with
      | stale => exact wired
      | requestRead => exact wired.same rfl rfl rfl
      | pythonCode => exact wired
  | reregistered =>
      unfold reregisterUnix
      dsimp only
      split
      · have middle
            : ({ self.worker.poll with
                eventsRegRead :=
                  self.worker.poll.eventsRegRead.insert unixStreamToken
                    .unixStreamRead } : Poller).Wired :=
          wired.insertRead (.inl rfl) rfl rfl rfl
        exact middle.insertWrite (.inl rfl) rfl rfl rfl
      · exact wired.insertRead (.inl rfl) rfl rfl rfl
  | result _ settles => exact settles.wired wired
  | _ => exact wired

-----------------------------------------------------------------------------------------
-- Where the streams are
-----------------------------------------------------------------------------------------

/-- The stream of a new descriptor, which becomes one when its event is handled. -/
def arrival? : Token × Event → Option (Token × TcpStream)
  | (tk, .newStreamFd fd) => some (tk, ⟨fd⟩)
  | _ => none

/-- The stream a descriptor becomes. -/
def owned (stream : Token × RawFd) : Token × TcpStream := (stream.1, ⟨stream.2⟩)

/-- The streams in the buffers of the loop. -/
def inFlight (phase : WorkerPhase) : Multiset (Token × TcpStream) :=
  (phase.eventsBuf.filterMap arrival? : List _)
  + (phase.workerResults.filterMap ActionResult.held? : List _)

/-- The streams in the four maps. -/
def mapped (worker : Worker) : Multiset (Token × TcpStream) :=
  contents Prod.fst worker.serverReadingStreams + contents id worker.serverPendingStreams
  + contents Prod.fst worker.serverWritingStreams
  + contents Prod.fst worker.serverCasketResponses

/-- Every stream the worker owns, with its token. -/
def holdings (self : WorkerLoop) : Multiset (Token × TcpStream) :=
  inFlight self.phase + mapped self.worker

end WorkerLoop

-----------------------------------------------------------------------------------------
-- What the trace tells of them
-----------------------------------------------------------------------------------------

namespace WorkerEffect

/-- The descriptors an effect takes off the socket. -/
@[simp]
def opened : WorkerEffect → Multiset RawFd
  | .dequeued fds => fds
  | _ => 0

/-- The stream an effect hands to the worker. -/
@[simp]
def came : WorkerEffect → Multiset (Token × TcpStream)
  | .received tk fd => {(tk, ⟨fd⟩)}
  | _ => 0

/-- The stream an effect takes away from it, with the answer for its token. -/
@[simp]
def left : WorkerEffect → Multiset (Token × TcpStream)
  | .closed tk tcpStream => {(tk, tcpStream)}
  | .released tk tcpStream => {(tk, tcpStream)}
  | _ => 0

/-- The stream an effect takes away without one. -/
@[simp]
def lost : WorkerEffect → Multiset (Token × TcpStream)
  | .replaced tk tcpStream => {(tk, tcpStream)}
  | _ => 0

/-- The token an effect answers. -/
@[simp]
def told : WorkerEffect → Multiset Token
  | .answered _ response => {response.token}
  | _ => 0

/-- The response an effect sends, if it does, and the bytes an effect hands to the socket. -/
@[simp]
def response? : WorkerEffect → Option Response
  | .answered _ response => some response
  | _ => none

@[simp]
def bytes : WorkerEffect → Bytes
  | .handed bytes => bytes
  | _ => []

/-- Neither a descriptor nor the socket is concerned. -/
@[simp]
def neutral : WorkerEffect → Bool
  | .read _ _ | .wrote _ _ _ | .sent _ | .taken _ | .delivered _ | .timedOut _
  | .logged _ _ => true
  | _ => false

end WorkerEffect

-----------------------------------------------------------------------------------------
-- How a step moves streams
-----------------------------------------------------------------------------------------

/-- The parts of the message buffer that a step may leave alone. -/
structure WorkerMsgBuffer.Same (before after : WorkerMsgBuffer) : Prop where
  serverFds : after.serverFds = before.serverFds
  streamFds : after.streamFds = before.streamFds
  writeBuffer : after.writeBuffer = before.writeBuffer

theorem WorkerMsgBuffer.Same.refl (msgBuf : WorkerMsgBuffer) : msgBuf.Same msgBuf :=
  ⟨rfl, rfl, rfl⟩

namespace WorkerLoop

/-- The ways a step moves streams, descriptors and answers. -/
inductive Shifts (bincode : Bincode) (before after : WorkerLoop) : Prop
  | within (effects : List WorkerEffect)
    (trace : after.trace = before.trace ++ effects)
    (neutral : ∀ effect ∈ effects, effect.neutral = true)
    (holdings : after.holdings = before.holdings)
    (msgBuf : before.worker.msgBuf.Same after.worker.msgBuf)
  | dequeued (fds : List RawFd) (trace : after.trace = before.trace ++ [.dequeued fds])
    (holdings : after.holdings = before.holdings)
    (serverFds : after.worker.msgBuf.serverFds = before.worker.msgBuf.serverFds)
    (streamFds : after.worker.msgBuf.streamFds = before.worker.msgBuf.streamFds ++ fds)
    (writeBuffer : after.worker.msgBuf.writeBuffer = before.worker.msgBuf.writeBuffer)
  | handed (bytes : Bytes) (trace : after.trace = before.trace ++ [.handed bytes])
    (holdings : after.holdings = before.holdings)
    (serverFds : after.worker.msgBuf.serverFds = before.worker.msgBuf.serverFds)
    (streamFds : after.worker.msgBuf.streamFds = before.worker.msgBuf.streamFds)
    (writeBuffer
      : bytes ++ after.worker.msgBuf.writeBuffer = before.worker.msgBuf.writeBuffer)
  | received (streams : List (Token × RawFd))
    (trace : after.trace = before.trace ++ streams.map streamReceived)
    (holdings : after.holdings = (streams.map owned : List _) + before.holdings)
    (serverFds
      : ∀ tk,
          tk ∈ after.worker.msgBuf.serverFds.keys
          ↔ tk ∈ streams.map Prod.fst ∨ tk ∈ before.worker.msgBuf.serverFds.keys)
    (streamFds
      : before.worker.msgBuf.streamFds
        = streams.map Prod.snd ++ after.worker.msgBuf.streamFds)
    (writeBuffer : after.worker.msgBuf.writeBuffer = before.worker.msgBuf.writeBuffer)
  | answered (tk : Token) (tcpStream : TcpStream) (lines : List WorkerEffect)
    (ending : Ending) (response : Response) (gone : WorkerEffect)
    (trace : after.trace = before.trace ++ (lines ++ [.answered ending response, gone]))
    (neutral : ∀ effect ∈ lines, effect.neutral = true)
    (gives : gone = .closed tk tcpStream ∨ gone = .released tk tcpStream)
    (token : response.token = tk)
    (holdings : before.holdings = {(tk, tcpStream)} + after.holdings)
    (known : tk ∈ before.worker.msgBuf.serverFds.keys)
    (serverFds : after.worker.msgBuf.serverFds = before.worker.msgBuf.serverFds.erase tk)
    (streamFds : after.worker.msgBuf.streamFds = before.worker.msgBuf.streamFds)
    (writeBuffer
      : after.worker.msgBuf.writeBuffer
        = before.worker.msgBuf.writeBuffer
          ++ wordPrefixed.frame (bincode.serializeResponse response))
  | replaced (tk : Token) (tcpStream : TcpStream)
    (trace : after.trace = before.trace ++ [.replaced tk tcpStream])
    (holdings : before.holdings = {(tk, tcpStream)} + after.holdings)
    (again : tk ∈ after.holdings.map Prod.fst)
    (msgBuf : before.worker.msgBuf.Same after.worker.msgBuf)

variable {cfg : Config} {crates : Crates} {bincode : Bincode} {self after : WorkerLoop}
  {input : WorkerInput}

/-- A result that was popped was in flight. -/
theorem inFlight_nextResult {phase rest : WorkerPhase} {res : ActionResult}
    (popped : phase.nextResult = some (res, rest))
    : inFlight phase
      = (res.held?.toList : Multiset (Token × TcpStream)) + inFlight rest := by
  obtain ⟨results, -, before, after, -⟩ := WorkerPhase.nextResult_spec popped
  rw [inFlight, inFlight, before, after, results]
  cases held : res.held? with
  | none => rw [List.filterMap_cons_none held]; simp
  | some stream => rw [List.filterMap_cons_some held]; simp

/-- Answering a token takes its stored descriptor and appends one frame. -/
theorem respond_inv {msgBuf after : WorkerMsgBuffer} {tk : Token} {keepAlive : Bool}
    {error : Option String} {response : Response}
    (responded : msgBuf.respond bincode tk keepAlive error = .ok (after, response))
    : tk ∈ msgBuf.serverFds.keys
      ∧ response.token = tk
      ∧ after.serverFds = msgBuf.serverFds.erase tk
      ∧ after.streamFds = msgBuf.streamFds
      ∧ after.streamMsgs = msgBuf.streamMsgs
      ∧ after.writeBuffer
        = msgBuf.writeBuffer ++ wordPrefixed.frame (bincode.serializeResponse response) := by
  cases looked : msgBuf.serverFds.lookup tk with
  | none =>
      rw [WorkerMsgBuffer.respond, looked] at responded
      cases responded
  | some fd =>
      rw [WorkerMsgBuffer.respond_spec looked] at responded
      obtain ⟨rfl, rfl⟩ := Prod.mk.inj (Except.ok.inj responded)
      exact ⟨mem_keys_of_lookup looked, rfl, rfl, rfl, rfl, rfl⟩

/-- An insertion for a held stream moves it to its map, or replaces the stream there. -/
theorem shifts_insert {α : Type} (view : α → TcpStream) (map : TokenMap α) (tk : Token)
    (value : α) (others : Multiset (Token × TcpStream)) {before after : WorkerLoop}
    (trace : after.trace = before.trace ++ replacing tk ((map.lookup tk).map view))
    (old : before.holdings = {(tk, view value)} + (contents view map + others))
    (new : after.holdings = contents view (map.insert tk value) + others)
    (msgBuf : before.worker.msgBuf.Same after.worker.msgBuf)
    : before.Shifts bincode after := by
  have moved := contents_insert_add view map tk value
  cases looked : map.lookup tk with
  | none =>
      rw [looked] at trace moved
      rw [Option.elim_none, add_zero] at moved
      refine .within [] trace nofun ?_ msgBuf
      rw [new, old, moved]
      abel
  | some replaced =>
      rw [looked] at trace moved
      rw [Option.elim_some] at moved
      refine .replaced tk (view replaced) trace ?_ ?_ msgBuf
      · rw [new, old, ← add_assoc, ← moved]
        abel
      · rw [new, contents_insert, Multiset.map_add, Multiset.map_add]
        simp

/-- All that changed so far is that these streams were taken in hand. -/
structure Hands (before now : WorkerLoop) (streams : Multiset (Token × TcpStream)) : Prop where
  trace : before.trace = now.trace
  msgBuf : before.worker.msgBuf = now.worker.msgBuf
  holdings : before.holdings = streams + now.holdings

theorem insertReading_shifts {before : WorkerLoop} {tk : Token} {tcpStream : TcpStream}
    {reader : Reader}
    (hands : before.Hands self {(tk, tcpStream)})
    : before.Shifts bincode (self.insertReading tk tcpStream reader) := by
  refine shifts_insert Prod.fst self.worker.serverReadingStreams tk (tcpStream, reader)
    (inFlight self.phase
      + (contents id self.worker.serverPendingStreams
        + contents Prod.fst self.worker.serverWritingStreams
        + contents Prod.fst self.worker.serverCasketResponses)) ?_ ?_ ?_ ?_
  · exact hands.trace ▸ rfl
  · rw [hands.holdings, WorkerLoop.holdings, mapped]
    abel
  · rw [WorkerLoop.holdings, mapped, insertReading, note]
    abel
  · exact hands.msgBuf ▸ .refl _

theorem insertPending_shifts {before : WorkerLoop} {tk : Token} {tcpStream : TcpStream}
    (hands : before.Hands self {(tk, tcpStream)})
    : before.Shifts bincode (self.insertPending tk tcpStream) := by
  refine shifts_insert id self.worker.serverPendingStreams tk tcpStream
    (inFlight self.phase
      + (contents Prod.fst self.worker.serverReadingStreams
        + contents Prod.fst self.worker.serverWritingStreams
        + contents Prod.fst self.worker.serverCasketResponses)) ?_ ?_ ?_ ?_
  · rw [Option.map_id]
    exact hands.trace ▸ rfl
  · rw [hands.holdings, WorkerLoop.holdings, mapped]
    simp only [id_eq]
    abel
  · rw [WorkerLoop.holdings, mapped, insertPending, note]
    abel
  · exact hands.msgBuf ▸ .refl _

theorem insertWriting_shifts {before : WorkerLoop} {tk : Token} {tcpStream : TcpStream}
    {writer : Writer}
    (hands : before.Hands self {(tk, tcpStream)})
    : before.Shifts bincode (self.insertWriting tk tcpStream writer) := by
  refine shifts_insert Prod.fst self.worker.serverWritingStreams tk (tcpStream, writer)
    (inFlight self.phase
      + (contents Prod.fst self.worker.serverReadingStreams
        + contents id self.worker.serverPendingStreams
        + contents Prod.fst self.worker.serverCasketResponses)) ?_ ?_ ?_ ?_
  · exact hands.trace ▸ rfl
  · rw [hands.holdings, WorkerLoop.holdings, mapped]
    abel
  · rw [WorkerLoop.holdings, mapped, insertWriting, note]
    abel
  · exact hands.msgBuf ▸ .refl _

theorem insertCasket_shifts {before : WorkerLoop} {tk : Token} {tcpStream : TcpStream}
    {casketResp : CasketResponse} (hands : before.Hands self {(tk, tcpStream)})
    : before.Shifts bincode (self.insertCasket tk tcpStream casketResp) := by
  refine shifts_insert Prod.fst self.worker.serverCasketResponses tk (tcpStream, casketResp)
    (inFlight self.phase
      + (contents Prod.fst self.worker.serverReadingStreams
        + contents id self.worker.serverPendingStreams
        + contents Prod.fst self.worker.serverWritingStreams)) ?_ ?_ ?_ ?_
  · exact hands.trace ▸ rfl
  · rw [hands.holdings, WorkerLoop.holdings, mapped]
    abel
  · rw [WorkerLoop.holdings, mapped, insertCasket, note]
    abel
  · exact hands.msgBuf ▸ .refl _

/-- A handled result moves its stream into a map, or gives it up. -/
theorem Settles.shifts {res : ActionResult} {result : Except IoError Unit}
    {before : WorkerLoop} (settles : self.Settles bincode res result after)
    (hands : before.Hands self res.held?.toList)
    : before.Shifts bincode after := by
  obtain ⟨trace, msgBuf, holdings⟩ := hands
  have same : before.worker.msgBuf.Same self.worker.msgBuf := msgBuf ▸ .refl _
  cases settles with
  | @answered _ _ lines ending gone tk tcpStream _ _ _ _ response held ends gives _ responded =>
      obtain ⟨known, token, serverFds, streamFds, -, writeBuffer⟩ := respond_inv responded
      rw [held] at holdings
      refine .answered tk tcpStream lines ending response gone ?_ ?_ gives token holdings ?_ ?_
        ?_ ?_
      · exact trace ▸ rfl
      · cases ends <;> simp [WorkerEffect.neutral]
      · exact msgBuf ▸ known
      · exact msgBuf ▸ serverFds
      · exact msgBuf ▸ streamFds
      · exact msgBuf ▸ writeBuffer
  | @lost tk _ tcpStream _ _ _ _ _ response waits _ responded =>
      obtain ⟨known, token, serverFds, streamFds, -, writeBuffer⟩ := respond_inv responded
      refine .answered tk tcpStream [] .regError response (.closed tk tcpStream) ?_ nofun
        (.inl rfl) token ?_ ?_ ?_ ?_ ?_
      · exact trace ▸ rfl
      · rw [holdings]
        simp only [ActionResult.held?, Option.toList_none, Multiset.coe_nil, zero_add,
          WorkerLoop.holdings, mapped, note, contents_of_lookup id waits]
        simp only [id_eq]
        abel
      · exact msgBuf ▸ known
      · exact msgBuf ▸ serverFds
      · exact msgBuf ▸ streamFds
      · exact msgBuf ▸ writeBuffer
  | accepted => exact insertReading_shifts ⟨trace, msgBuf, holdings⟩
  | reading => exact insertReading_shifts ⟨trace, msgBuf, holdings⟩
  | queued => exact insertPending_shifts ⟨trace, msgBuf, holdings⟩
  | @responding tk _ tcpStream waits =>
      refine insertWriting_shifts ⟨trace, msgBuf, ?_⟩
      rw [holdings]
      simp only [ActionResult.held?, Option.toList_none, Multiset.coe_nil, zero_add,
        WorkerLoop.holdings, mapped, contents_of_lookup id waits, id_eq]
      abel
  | writing => exact insertWriting_shifts ⟨trace, msgBuf, holdings⟩
  | casket is =>
      rcases is with rfl | rfl
      · exact insertCasket_shifts ⟨trace, msgBuf, holdings⟩
      · exact insertCasket_shifts ⟨trace, msgBuf, holdings⟩
  | started =>
      refine .within [] (trace ▸ (List.append_nil _).symm) nofun ?_ same
      rw [holdings]
      exact (zero_add _).symm

/-- Pushed results bring their streams. -/
theorem holdings_pushResults (collects : self.phase.collects = true)
    (more : List ActionResult)
    : (self.pushResults more).holdings
      = (more.filterMap ActionResult.held? : List _) + self.holdings := by
  rw [holdings, holdings, pushResults, inFlight, inFlight,
    WorkerPhase.workerResults_pushResults collects, WorkerPhase.eventsBuf_pushResults,
    List.filterMap_append, ← Multiset.coe_add]
  abel

@[simp]
theorem holdings_pushTimeout (tk : Token) (timeout : Timeout)
    : (self.pushTimeout tk timeout).holdings = self.holdings := by
  rw [holdings, holdings, pushTimeout, inFlight, inFlight, WorkerPhase.eventsBuf_pushTimeout,
    WorkerPhase.workerResults_pushTimeout]

/-- A successful read of the unix stream adds the descriptors that came with it. -/
theorem readUnixStream_parts {msgBuf next : WorkerMsgBuffer} {read : Except IoError Bytes}
    {dequeued : List RawFd} {slices : List Bytes}
    (decoded : msgBuf.readUnixStream bincode read dequeued = .ok (next, .ok slices))
    : next.serverFds = msgBuf.serverFds
      ∧ next.streamFds = msgBuf.streamFds ++ dequeued
      ∧ next.writeBuffer = msgBuf.writeBuffer := by
  unfold WorkerMsgBuffer.readUnixStream at decoded
  split at decoded
  · cases decoded
  · dsimp only at decoded
    split at decoded
    · cases decoded
    · obtain ⟨rfl, -⟩ := Prod.mk.inj (Except.ok.inj decoded)
      exact ⟨rfl, rfl, rfl⟩

/-- Only timers and new responses come of a poll of the python threads. -/
theorem takeResponses_held {threads next : PythonThreads} {pool outside : PythonPool}
    {observed : PythonThreads.Observed} {results : List ActionResult}
    (took : threads.takeResponses pool [] observed = .ok (next, outside, results, .ok ()))
    : results.filterMap ActionResult.held? = [] := by
  obtain ⟨delivered, rfl, -⟩ := PythonThreads.takeResponses_spec took
  rw [List.filterMap_eq_nil_iff]
  intro res member
  rcases List.mem_append.mp member with started | responded
  · obtain ⟨start, -, rfl⟩ := List.mem_map.mp started
    rfl
  · obtain ⟨response, -, rfl⟩ := List.mem_map.mp responded
    rfl

/-- A stream taken out of a map for an event comes back in the result of the event. -/
theorem ReadResult.held {tk : Token} {tcpStream : TcpStream} {res : ActionResult}
    (gives : ReadResult tk tcpStream res)
    : res.held? = some (tk, tcpStream) := by
  cases gives <;> rfl

theorem WriteResult.held {tk : Token} {tcpStream : TcpStream} {res : ActionResult}
    (gives : WriteResult tk tcpStream res)
    : res.held? = some (tk, tcpStream) := by
  cases gives <;> rfl

theorem CasketResult.held {tk : Token} {tcpStream : TcpStream} {code : UInt16}
    {res : ActionResult} (gives : CasketResult tk tcpStream code res)
    : res.held? = some (tk, tcpStream) := by
  cases gives <;> rfl

/-- A stream moves from its map to a pushed result. -/
theorem shifts_taken {before taken : WorkerLoop} {tk : Token} {tcpStream : TcpStream}
    {res : ActionResult} (effects : List WorkerEffect)
    (collects : taken.phase.collects = true) (held : res.held? = some (tk, tcpStream))
    (trace : taken.trace = before.trace ++ effects)
    (neutral : ∀ effect ∈ effects, effect.neutral = true)
    (msgBuf : before.worker.msgBuf = taken.worker.msgBuf)
    (holdings : before.holdings = {(tk, tcpStream)} + taken.holdings)
    : before.Shifts bincode (taken.pushResults [res]) := by
  refine .within effects trace neutral ?_ (msgBuf ▸ .refl _)
  have pushed := holdings_pushResults collects [res]
  rw [List.filterMap_cons_some held] at pushed
  exact pushed.trans holdings.symm

/-- An event moves the stream it is for into a result; the rest stays. -/
theorem Delivers.shifts {tk : Token} {ev : Event} {before : WorkerLoop}
    (delivers : self.Delivers cfg bincode tk ev after)
    (collects : self.phase.collects = true)
    (hands : before.Hands self (arrival? (tk, ev)).toList)
    : before.Shifts bincode after := by
  obtain ⟨trace, msgBuf, holdings⟩ := hands
  have same : before.worker.msgBuf.Same self.worker.msgBuf := msgBuf ▸ .refl _
  cases delivers with
  | ctrlC =>
      refine .within [] (trace ▸ (List.append_nil _).symm) nofun ?_ same
      exact (holdings.trans (zero_add _)).symm
  | @unixStreamRead read dequeued _ next _ decoded =>
      obtain ⟨serverFds, streamFds, writeBuffer⟩ := readUnixStream_parts decoded
      refine .dequeued dequeued (trace ▸ rfl) ?_ (msgBuf ▸ serverFds) (msgBuf ▸ streamFds)
        (msgBuf ▸ writeBuffer)
      exact (holdings.trans (zero_add _)).symm
  | @unixStreamWrite write _ next written wrote =>
      obtain ⟨kept, result, same, handed⟩ :=
        self.worker.msgBuf.writeUnixStream_spec write
      rw [same] at wrote
      obtain ⟨rfl, rfl⟩ := Prod.mk.inj wrote
      refine .handed written (trace ▸ rfl) ?_ (msgBuf ▸ rfl) (msgBuf ▸ rfl) (msgBuf ▸ handed)
      exact (holdings.trans (zero_add _)).symm
  | refused =>
      refine .within [] (trace ▸ (List.append_nil _).symm) nofun ?_ same
      exact (holdings_pushResults collects _).trans holdings.symm
  | newStreamFd =>
      refine .within [] (trace ▸ (List.append_nil _).symm) nofun ?_ same
      exact (holdings_pushResults collects _).trans holdings.symm
  | @serverStreamRead _ _ size _ found gives =>
      refine shifts_taken [.read tk size] collects gives.held (trace ▸ rfl)
        (by simp [WorkerEffect.neutral]) msgBuf ?_
      rw [holdings, WorkerLoop.holdings, mapped, contents_of_lookup Prod.fst found]
      simp only [WorkerLoop.holdings, mapped, note, arrival?, Option.toList_none,
        Multiset.coe_nil, zero_add]
      abel
  | @queuedRequests _ next pool sent =>
      refine .within _ (congrArg (· ++ _) trace.symm) ?_ ?_ same
      · intro effect member
        obtain ⟨token, -, rfl⟩ := List.mem_map.mp member
        rfl
      · exact (holdings.trans (zero_add _)).symm
  | @pollPythonResponses observed next pool results took =>
      refine .within _ (congrArg (· ++ _) trace.symm) ?_ ?_ same
      · intro effect member
        rcases List.mem_append.mp member with member | member
        · obtain ⟨token, -, rfl⟩ := List.mem_map.mp member
          rfl
        · obtain ⟨token, -, rfl⟩ := List.mem_map.mp member
          rfl
      · have pushed := holdings_pushResults collects results
        rw [takeResponses_held took] at pushed
        exact pushed.trans holdings.symm
  | @serverStreamWrite _ _ size _ found gives =>
      refine shifts_taken [.wrote tk none size] collects gives.held (trace ▸ rfl)
        (by simp [WorkerEffect.neutral]) msgBuf ?_
      rw [holdings, WorkerLoop.holdings, mapped, contents_of_lookup Prod.fst found]
      simp only [WorkerLoop.holdings, mapped, note, arrival?, Option.toList_none,
        Multiset.coe_nil, zero_add]
      abel
  | @casketResponseWrite _ casketResp size _ found gives =>
      refine shifts_taken [.wrote tk (some casketResp.code) size] collects gives.held
        (trace ▸ rfl) (by simp [WorkerEffect.neutral]) msgBuf ?_
      rw [holdings, WorkerLoop.holdings, mapped, contents_of_lookup Prod.fst found]
      simp only [WorkerLoop.holdings, mapped, note, arrival?, Option.toList_none,
        Multiset.coe_nil, zero_add]
      abel
  | requestReadTimeout =>
      refine .within [] (trace ▸ (List.append_nil _).symm) nofun ?_ same
      rw [holdings, holdings_pushTimeout]
      exact (zero_add _).symm
  | pythonCodeTimeout =>
      refine .within [] (trace ▸ (List.append_nil _).symm) nofun ?_ same
      rw [holdings, holdings_pushTimeout]
      exact (zero_add _).symm

/-- So does a timeout whose stream still waits. -/
theorem Expires.shifts {tk : Token} {timeout : Timeout} {before : WorkerLoop}
    (expires : self.Expires tk timeout after) (collects : self.phase.collects = true)
    (hands : before.Hands self 0)
    : before.Shifts bincode after := by
  obtain ⟨trace, msgBuf, holdings⟩ := hands
  have same : before.worker.msgBuf.Same self.worker.msgBuf := msgBuf ▸ .refl _
  cases expires with
  | stale =>
      refine .within [] (trace ▸ (List.append_nil _).symm) nofun ?_ same
      exact (holdings.trans (zero_add _)).symm
  | requestRead found =>
      refine shifts_taken [] collects rfl (trace ▸ (List.append_nil _).symm) nofun msgBuf ?_
      rw [holdings, WorkerLoop.holdings, mapped, contents_of_lookup Prod.fst found]
      simp only [WorkerLoop.holdings, mapped, zero_add]
      abel
  | @pythonCode tcpStream found =>
      have taken
          : before.Shifts bincode
              (({ self with
                  worker :=
                    { self.worker with
                      serverPendingStreams := self.worker.serverPendingStreams.erase tk
                      pythonThreads :=
                        self.worker.pythonThreads.timeoutRequest tk } }.note
                [.timedOut tk]).pushResults
                [.ok (new504GatewayTimeout tk tcpStream)]) := by
        refine shifts_taken [.timedOut tk] collects rfl (trace ▸ rfl)
          (by simp [WorkerEffect.neutral]) msgBuf ?_
        rw [holdings, WorkerLoop.holdings, mapped, contents_of_lookup id found]
        simp only [WorkerLoop.holdings, mapped, note, zero_add, id_eq]
        abel
      exact taken

/-- The loop over the waiting descriptors pairs a front part of them with the messages, by
induction on the turns.
-/
theorem takeStreamFds_spec (turns : Nat) (msgBuf : WorkerMsgBuffer)
    : msgBuf.streamFds
        = (takeStreamFds turns msgBuf).1.map Prod.snd
          ++ (takeStreamFds turns msgBuf).2.streamFds
      ∧ msgBuf.streamMsgs.map Request.token
        = (takeStreamFds turns msgBuf).1.map Prod.fst
          ++ (takeStreamFds turns msgBuf).2.streamMsgs.map Request.token
      ∧ (∀ tk,
          tk ∈ (takeStreamFds turns msgBuf).2.serverFds.keys
          ↔ tk ∈ (takeStreamFds turns msgBuf).1.map Prod.fst ∨ tk ∈ msgBuf.serverFds.keys)
      ∧ (takeStreamFds turns msgBuf).2.writeBuffer = msgBuf.writeBuffer := by
  induction turns generalizing msgBuf with
  | zero => exact ⟨rfl, rfl, fun _ => ⟨.inr, fun known => known.resolve_left nofun⟩, rfl⟩
  | succ turns ih =>
      rw [takeStreamFds]
      cases fds : msgBuf.streamFds with
      | nil =>
          simp only [WorkerMsgBuffer.nextStreamFd, fds]
          exact ⟨rfl, rfl, fun _ => ⟨.inr, fun known => known.resolve_left nofun⟩, trivial⟩
      | cons fd rest =>
          cases msgs : msgBuf.streamMsgs with
          | nil =>
              simp only [WorkerMsgBuffer.nextStreamFd, fds, msgs]
              exact ⟨rfl, rfl, fun _ => ⟨.inr, fun known => known.resolve_left nofun⟩, trivial⟩
          | cons msg more =>
              simp only [WorkerMsgBuffer.nextStreamFd, fds, msgs]
              obtain ⟨streamFds, streamMsgs, serverFds, writeBuffer⟩ :=
                ih
                  { msgBuf with
                    streamFds := rest
                    streamMsgs := more
                    serverFds := msgBuf.serverFds.insert msg.token msg.fd }
              refine ⟨congrArg (fd :: ·) streamFds, congrArg (msg.token :: ·) streamMsgs, ?_,
                writeBuffer⟩
              intro tk
              rw [serverFds tk, mem_keys_insert, List.map_cons, List.mem_cons]
              tauto

/-- The top of the loop, once it does not end, with the streams it takes. -/
theorem loopTop_goes (goes : self.finished = false) {streams : List (Token × RawFd)}
    {msgBuf : WorkerMsgBuffer}
    (taken
      : takeStreamFds self.worker.msgBuf.streamFds.length self.worker.msgBuf
        = (streams, msgBuf))
    : self.loopTop
      = { self with
          worker := { self.worker with msgBuf }
          phase := .ticking (streams.map streamEvent ++ self.polls) }.note
          (streams.map streamReceived) := by
  simp only [loopTop, goes, Bool.false_eq_true, if_false, taken]

/-- The loop's own events are for the python threads. -/
theorem mem_polls {item : Token × Event} (member : item ∈ self.polls)
    : item = (noToken, .pollPythonResponses) ∨ item = (noToken, .queuedRequests) := by
  rcases List.mem_append.mp member with poll | queued
  · split at poll
    · exact .inl (List.mem_singleton.mp poll)
    · cases poll
  · split at queued
    · exact .inr (List.mem_singleton.mp queued)
    · cases queued

/-- The arrivals at the top of the loop are the streams that were taken. -/
theorem arrivals_top (self : WorkerLoop) (streams : List (Token × RawFd))
    : (streams.map streamEvent ++ self.polls).filterMap arrival? = streams.map owned := by
  have arrivals : (streams.map streamEvent).filterMap arrival? = streams.map owned := by
    rw [List.filterMap_map, ← List.filterMap_eq_map]
    rfl
  have none : self.polls.filterMap arrival? = [] := by
    rw [List.filterMap_eq_nil_iff]
    intro item member
    rcases mem_polls member with rfl | rfl <;> rfl
  rw [List.filterMap_append, arrivals, none, List.append_nil]

/-- The loop over the descriptors hands streams to the worker. -/
theorem loopTop_shifts (stands : self.phase = .top) (goes : self.finished = false)
    : self.Shifts bincode self.loopTop := by
  obtain ⟨streamFds, -, serverFds, writeBuffer⟩ :=
    takeStreamFds_spec self.worker.msgBuf.streamFds.length self.worker.msgBuf
  generalize taken
    : takeStreamFds self.worker.msgBuf.streamFds.length self.worker.msgBuf = all at *
  obtain ⟨streams, msgBuf⟩ := all
  rw [loopTop_goes goes taken]
  refine .received streams rfl ?_ serverFds streamFds writeBuffer
  rw [holdings, holdings, stands]
  simp only [inFlight, WorkerPhase.eventsBuf, WorkerPhase.workerResults, note,
    arrivals_top, List.filterMap_nil,
    Multiset.coe_nil, add_zero, zero_add, mapped]

/-- A tick delivers no new descriptors: those were collected before. -/
theorem tick_arrivals {poll next : Poller} {events delivered : List (Token × Event)}
    {now : SystemTime} {popped : List TimerEntry} {polled : Except IoError (List MioEvent)}
    (wired : poll.Wired) (pops : poll.Pops now popped)
    (ticked : poll.tick events now popped polled = .ok (next, .ok delivered))
    : (delivered.filterMap arrival?).Perm (events.filterMap arrival?) := by
  obtain ⟨reads, writes, signals, order, draws, signal⟩ := Poller.tick_delivers ticked
  have timers
      : (popped.map fun entry => (entry.token, entry.event)).filterMap arrival? = [] := by
    rw [List.filterMap_eq_nil_iff]
    intro item member
    obtain ⟨entry, there, rfl⟩ := List.mem_map.mp member
    have armed : entry ∈ poll.timerq := (List.mem_filter.mp (pops.1.mem_iff.mp there)).1
    rcases wired.timerq entry armed with timeout | timeout <;> rw [timeout] <;> rfl
  have drawn : (reads ++ writes ++ signals).filterMap arrival? = [] := by
    rw [List.filterMap_eq_nil_iff]
    rintro ⟨tk, ev⟩ member
    rcases List.mem_append.mp member with member | member
    · rcases List.mem_append.mp member with read | write
      · rcases wired.read (draws.reads.found read).1 with rfl | rfl <;> rfl
      · rcases wired.write (draws.writes.found write).1 with rfl | rfl | rfl <;> rfl
    · rw [signal _ member]
      rfl
  have all := order.filterMap arrival?
  rwa [List.filterMap_append, List.filterMap_append, timers, drawn, List.append_nil,
    List.append_nil] at all

/-- Every step moves streams in one of these ways. -/
theorem Takes.shifts (takes : self.Takes cfg bincode input after)
    (wired : self.worker.poll.Wired)
    : self.Shifts bincode after := by
  have still {next : WorkerLoop} (trace : next.trace = self.trace)
      (holdings : next.holdings = self.holdings)
      (msgBuf : next.worker.msgBuf = self.worker.msgBuf) : self.Shifts bincode next :=
    .within [] (trace.trans (List.append_nil _).symm) nofun holdings (msgBuf ▸ .refl _)
  cases takes with
  | top stands goes => exact loopTop_shifts stands goes
  | tick stands pops ticked =>
      refine still rfl ?_ rfl
      have arrivals := Multiset.coe_eq_coe.mpr (tick_arrivals wired pops ticked)
      rw [holdings, holdings, stands, inFlight, inFlight]
      exact congrArg (· + 0 + mapped self.worker) arrivals
  | @event tk ev evs tmos results io _ stands delivers =>
      refine delivers.shifts rfl ⟨rfl, rfl, ?_⟩
      rw [holdings, holdings, stands, inFlight, inFlight]
      dsimp only [WorkerPhase.eventsBuf, WorkerPhase.workerResults]
      cases is : arrival? (tk, ev) with
      | none => rw [List.filterMap_cons_none is]; simp
      | some stream =>
          rw [List.filterMap_cons_some is, ← Multiset.cons_coe, ← Multiset.singleton_add,
            Option.toList_some, Multiset.coe_singleton]
          simp only [add_assoc]
  | delivered stands => exact still rfl (by rw [holdings, holdings, stands]; rfl) rfl
  | acted stands => exact still rfl (by rw [holdings, holdings, stands]; rfl) rfl
  | timeout stands expires =>
      refine expires.shifts rfl ⟨rfl, rfl, ?_⟩
      rw [holdings, holdings, stands, zero_add]
      rfl
  | expired stands => exact still rfl (by rw [holdings, holdings, stands]; rfl) rfl
  | settled stands => exact still rfl (by rw [holdings, holdings, stands]; rfl) rfl
  | reregistered stands => exact still rfl (by rw [holdings, holdings, stands]; rfl) rfl
  | result popped settles =>
      refine settles.shifts ⟨rfl, rfl, ?_⟩
      rw [holdings, inFlight_nextResult popped, add_assoc]
      rfl
  | socket => exact still rfl rfl rfl
  | codeStart => exact still rfl rfl rfl
  | respond => exact still rfl rfl rfl
  | threadDies => exact still rfl rfl rfl

end WorkerLoop

-----------------------------------------------------------------------------------------
-- What a run conserves
-----------------------------------------------------------------------------------------

namespace WorkerEffect

/-- Neutral effects have no share in any of the totals. -/
theorem neutral_shares {effect : WorkerEffect} (neutral : effect.neutral = true)
    : effect.opened = 0 ∧ effect.came = 0 ∧ effect.left = 0 ∧ effect.lost = 0
      ∧ effect.told = 0 ∧ effect.response? = none ∧ effect.bytes = [] := by
  cases effect with
  | read | wrote | sent | taken | delivered | timedOut | logged =>
      exact ⟨rfl, rfl, rfl, rfl, rfl, rfl, rfl⟩
  | _ => cases neutral

/-- The responses sent so far, and the bytes the socket has accepted. -/
def responses (trace : List WorkerEffect) : List Response := trace.filterMap response?

def accepted (trace : List WorkerEffect) : Bytes := trace.flatMap bytes

/-- The frames of some responses, as the worker writes them. -/
def frames (bincode : Bincode) (responses : List Response) : Bytes :=
  responses.flatMap fun response => wordPrefixed.frame (bincode.serializeResponse response)

theorem neutral_totals {effects : List WorkerEffect}
    (neutral : ∀ effect ∈ effects, effect.neutral = true)
    : total opened effects = 0 ∧ total came effects = 0 ∧ total left effects = 0
      ∧ total lost effects = 0 ∧ total told effects = 0 ∧ responses effects = []
      ∧ accepted effects = [] := by
  refine ⟨?_, ?_, ?_, ?_, ?_, ?_, ?_⟩
  · exact total_eq_zero fun effect member => (neutral_shares (neutral effect member)).1
  · exact total_eq_zero fun effect member => (neutral_shares (neutral effect member)).2.1
  · exact total_eq_zero fun effect member => (neutral_shares (neutral effect member)).2.2.1
  · exact total_eq_zero fun effect member => (neutral_shares (neutral effect member)).2.2.2.1
  · exact total_eq_zero fun effect member =>
      (neutral_shares (neutral effect member)).2.2.2.2.1
  · exact List.filterMap_eq_nil_iff.mpr fun effect member =>
      (neutral_shares (neutral effect member)).2.2.2.2.2.1
  · exact List.flatMap_eq_nil_iff.mpr fun effect member =>
      (neutral_shares (neutral effect member)).2.2.2.2.2.2

end WorkerEffect

namespace WorkerLoop

open WorkerEffect

/-- What every run conserves, whatever tokens it is sent: streams and descriptors are
somewhere, every token that leaves is answered, and the answers are on their way.
-/
structure Conserves (bincode : Bincode) (state : WorkerLoop) : Prop where
  streams
    : total came state.trace
      = state.holdings + (total left state.trace + total lost state.trace)
  fds
    : total opened state.trace
      = state.worker.msgBuf.streamFds + (total came state.trace).map (·.2.fd)
  answers : total told state.trace = (total left state.trace).map Prod.fst
  told
    : ∀ tk ∈ (total came state.trace).map Prod.fst,
        tk ∈ total told state.trace ∨ tk ∈ state.worker.msgBuf.serverFds.keys
  known : ∀ tk ∈ state.worker.msgBuf.serverFds.keys, tk ∈ state.holdings.map Prod.fst
  frames
    : accepted state.trace ++ state.worker.msgBuf.writeBuffer
      = frames bincode (responses state.trace)
  unreplaced
    : ((total came state.trace).map Prod.fst).Nodup → total lost state.trace = 0

variable {cfg : Config} {crates : Crates} {bincode : Bincode} {self after : WorkerLoop}
  {input : WorkerInput}

theorem conserves_new (cfg : Config) (bincode : Bincode)
    : (WorkerLoop.new cfg).Conserves bincode where
  streams := rfl
  fds := rfl
  answers := rfl
  told := nofun
  known := nofun
  frames := rfl
  unreplaced _ := rfl

/-- The sums of a longer trace, from those of what it grew by. -/
structure Grows (before after : List WorkerEffect) (news : Multiset RawFd)
    (comes leaves loses : Multiset (Token × TcpStream)) (tells : Multiset Token)
    (sends : List Response) (moves : Bytes) : Prop where
  opened : total opened after = total opened before + news
  came : total came after = total came before + comes
  left : total left after = total left before + leaves
  lost : total lost after = total lost before + loses
  told : total told after = total told before + tells
  responses : responses after = responses before ++ sends
  accepted : accepted after = accepted before ++ moves

theorem Grows.refl (trace : List WorkerEffect) : Grows trace trace 0 0 0 0 0 [] [] :=
  ⟨(add_zero _).symm, (add_zero _).symm, (add_zero _).symm, (add_zero _).symm,
    (add_zero _).symm, (List.append_nil _).symm, (List.append_nil _).symm⟩

/-- One more effect adds its shares. -/
theorem Grows.one {before middle after : List WorkerEffect} {news : Multiset RawFd}
    {comes leaves loses : Multiset (Token × TcpStream)} {tells : Multiset Token}
    {sends : List Response} {moves : Bytes} {effect : WorkerEffect}
    (grown : Grows before middle news comes leaves loses tells sends moves)
    (trace : after = middle ++ [effect])
    : Grows before after (news + effect.opened) (comes + effect.came) (leaves + effect.left)
        (loses + effect.lost) (tells + effect.told) (sends ++ effect.response?.toList)
        (moves ++ effect.bytes) := by
  subst trace
  constructor
  · rw [total_append, grown.opened, total_cons, total_nil, add_zero, add_assoc]
  · rw [total_append, grown.came, total_cons, total_nil, add_zero, add_assoc]
  · rw [total_append, grown.left, total_cons, total_nil, add_zero, add_assoc]
  · rw [total_append, grown.lost, total_cons, total_nil, add_zero, add_assoc]
  · rw [total_append, grown.told, total_cons, total_nil, add_zero, add_assoc]
  · have before := grown.responses
    unfold WorkerEffect.responses at before ⊢
    rw [List.filterMap_append, before, List.append_assoc]
    cases sends : effect.response? with
    | none => rw [List.filterMap_cons_none sends]; rfl
    | some response => rw [List.filterMap_cons_some sends]; rfl
  · have before := grown.accepted
    unfold WorkerEffect.accepted at before ⊢
    rw [List.flatMap_append, before, List.append_assoc, List.flatMap_singleton]

theorem grows_neutral {before after effects : List WorkerEffect}
    (trace : after = before ++ effects)
    (neutral : ∀ effect ∈ effects, effect.neutral = true)
    : Grows before after 0 0 0 0 0 [] [] := by
  subst trace
  obtain ⟨opened, came, left, lost, told, unsent, unmoved⟩ := neutral_totals neutral
  constructor
  · rw [total_append, opened]
  · rw [total_append, came]
  · rw [total_append, left]
  · rw [total_append, lost]
  · rw [total_append, told]
  · exact List.filterMap_append.trans (congrArg _ unsent)
  · exact List.flatMap_append.trans (congrArg _ unmoved)

theorem grows_received {before after : List WorkerEffect} {streams : List (Token × RawFd)}
    (trace : after = before ++ streams.map streamReceived)
    : Grows before after 0 (streams.map owned : List _) 0 0 0 [] [] := by
  subst trace
  constructor
  · rw [total_append, total_map_none opened _ fun _ => rfl]
  · rw [total_append, total_map came streamReceived owned fun _ => rfl]
  · rw [total_append, total_map_none left _ fun _ => rfl]
  · rw [total_append, total_map_none lost _ fun _ => rfl]
  · rw [total_append, total_map_none told _ fun _ => rfl]
  · refine List.filterMap_append.trans (congrArg _ (List.filterMap_eq_nil_iff.mpr ?_))
    exact List.forall_mem_map.mpr fun _ _ => rfl
  · refine List.flatMap_append.trans (congrArg _ (List.flatMap_eq_nil_iff.mpr ?_))
    exact List.forall_mem_map.mpr fun _ _ => rfl

/-- What a step has to balance to conserve everything. -/
theorem Conserves.balance {news : Multiset RawFd}
    {comes leaves loses : Multiset (Token × TcpStream)} {tells : Multiset Token}
    {sends : List Response} {moves : Bytes} (conserves : self.Conserves bincode)
    (grown : Grows self.trace after.trace news comes leaves loses tells sends moves)
    (streams : self.holdings + comes = after.holdings + (leaves + loses))
    (fds
      : (self.worker.msgBuf.streamFds : Multiset RawFd) + news
        = after.worker.msgBuf.streamFds + comes.map (·.2.fd))
    (answers : tells = leaves.map Prod.fst)
    (told
      : ∀ tk, tk ∈ comes.map Prod.fst ∨ tk ∈ self.worker.msgBuf.serverFds.keys →
          tk ∈ tells ∨ tk ∈ after.worker.msgBuf.serverFds.keys)
    (known : ∀ tk ∈ after.worker.msgBuf.serverFds.keys, tk ∈ after.holdings.map Prod.fst)
    (sent
      : self.worker.msgBuf.writeBuffer ++ WorkerEffect.frames bincode sends
        = moves ++ after.worker.msgBuf.writeBuffer)
    (unreplaced : ((total came after.trace).map Prod.fst).Nodup → loses = 0)
    : after.Conserves bincode where
  streams := by
    rw [grown.came, grown.left, grown.lost, conserves.streams]
    calc self.holdings + (total left self.trace + total lost self.trace) + comes
      _ = self.holdings + comes + (total left self.trace + total lost self.trace) := by abel
      _ = after.holdings + (leaves + loses)
            + (total left self.trace + total lost self.trace) := by rw [streams]
      _ = _ := by abel
  fds := by
    rw [grown.opened, grown.came, conserves.fds, Multiset.map_add]
    calc (self.worker.msgBuf.streamFds : Multiset RawFd)
            + (total came self.trace).map (·.2.fd) + news
      _ = self.worker.msgBuf.streamFds + news + (total came self.trace).map (·.2.fd) := by
        abel
      _ = after.worker.msgBuf.streamFds + comes.map (·.2.fd)
            + (total came self.trace).map (·.2.fd) := by rw [fds]
      _ = _ := by abel
  answers := by rw [grown.told, grown.left, Multiset.map_add, conserves.answers, answers]
  told := by
    intro tk member
    rw [grown.came, Multiset.map_add, Multiset.mem_add] at member
    rw [grown.told, Multiset.mem_add]
    rcases member with old | new
    · rcases conserves.told tk old with before | stored
      · exact .inl (.inl before)
      · exact (told tk (.inr stored)).imp_left .inr
    · exact (told tk (.inl new)).imp_left .inr
  known := known
  frames := by
    rw [grown.accepted, grown.responses, List.append_assoc, ← sent, ← List.append_assoc,
      conserves.frames, WorkerEffect.frames, WorkerEffect.frames, WorkerEffect.frames,
      List.flatMap_append]
  unreplaced := by
    intro distinct
    have before := distinct
    rw [grown.came, Multiset.map_add, Multiset.nodup_add] at before
    rw [grown.lost, conserves.unreplaced before.1, unreplaced distinct, add_zero]

/-- Each way of moving streams conserves them. -/
theorem Shifts.conserves (shifts : self.Shifts bincode after)
    (conserves : self.Conserves bincode)
    : after.Conserves bincode := by
  cases shifts with
  | within effects trace neutral holdings msgBuf =>
      refine conserves.balance (grows_neutral trace neutral) ?_ ?_ rfl ?_ ?_ ?_ fun _ => rfl
      · rw [holdings]; rfl
      · rw [msgBuf.streamFds]; rfl
      · rw [msgBuf.serverFds]
        intro tk known
        exact .inr (known.resolve_left (Multiset.notMem_zero tk))
      · rw [msgBuf.serverFds, holdings]
        exact conserves.known
      · rw [msgBuf.writeBuffer]
        exact List.append_nil _
  | dequeued more trace holdings serverFds streamFds writeBuffer =>
      have grown : Grows self.trace after.trace more 0 0 0 0 [] [] := by
        simpa using (Grows.refl self.trace).one trace
      refine conserves.balance grown ?_ ?_ rfl ?_ ?_ ?_ fun _ => rfl
      · rw [holdings]; rfl
      · rw [streamFds, ← Multiset.coe_add, Multiset.map_zero, add_zero]
      · rw [serverFds]
        intro tk known
        exact .inr (known.resolve_left (Multiset.notMem_zero tk))
      · rw [serverFds, holdings]
        exact conserves.known
      · rw [writeBuffer]
        exact List.append_nil _
  | handed some trace holdings serverFds streamFds writeBuffer =>
      have grown : Grows self.trace after.trace 0 0 0 0 0 [] some := by
        simpa using (Grows.refl self.trace).one trace
      refine conserves.balance grown ?_ ?_ rfl ?_ ?_ ?_ fun _ => rfl
      · rw [holdings]; rfl
      · rw [streamFds]; rfl
      · rw [serverFds]
        intro tk known
        exact .inr (known.resolve_left (Multiset.notMem_zero tk))
      · rw [serverFds, holdings]
        exact conserves.known
      · rw [writeBuffer]
        exact List.append_nil _
  | received streams trace holdings serverFds streamFds writeBuffer =>
      refine conserves.balance (grows_received trace) ?_ ?_ rfl ?_ ?_ ?_ fun _ => rfl
      · rw [holdings]
        simp only [add_zero]
        exact add_comm _ _
      · rw [streamFds, ← Multiset.coe_add, Multiset.map_coe, List.map_map, add_zero]
        exact add_comm _ _
      · intro tk known
        refine .inr ((serverFds tk).mpr (known.imp_left ?_))
        intro member
        obtain ⟨stream, there, rfl⟩ := Multiset.mem_map.mp member
        obtain ⟨pair, isIn, rfl⟩ := List.mem_map.mp (Multiset.mem_coe.mp there)
        exact List.mem_map.mpr ⟨pair, isIn, rfl⟩
      · intro tk known
        rw [holdings, Multiset.map_add, Multiset.mem_add]
        rcases (serverFds tk).mp known with new | old
        · obtain ⟨pair, isIn, rfl⟩ := List.mem_map.mp new
          left
          exact Multiset.mem_map.mpr
            ⟨owned pair, Multiset.mem_coe.mpr (List.mem_map_of_mem isIn), rfl⟩
        · exact .inr (conserves.known tk old)
      · rw [writeBuffer]
        exact List.append_nil _
  | answered tk tcpStream lines ending response gone trace neutral gives token holdings known
      serverFds streamFds writeBuffer =>
      have grown : Grows self.trace after.trace 0 0 {(tk, tcpStream)} 0 {tk} [response] [] := by
        have all := ((grows_neutral rfl neutral).one rfl).one
          (trace.trans (by simp : _ = self.trace ++ lines ++ [.answered ending response] ++ [gone]))
        rcases gives with rfl | rfl
        · simpa [token] using all
        · simpa [token] using all
      refine conserves.balance grown ?_ ?_ ?_ ?_ ?_ ?_ fun _ => rfl
      · rw [holdings, add_zero, add_zero]
        exact add_comm _ _
      · rw [streamFds]; rfl
      · rw [Multiset.map_singleton]
      · intro other known
        rw [serverFds, mem_keys_erase]
        by_cases same : other = tk
        · exact .inl (same ▸ Multiset.mem_singleton_self tk)
        · exact .inr ⟨same, known.resolve_left (Multiset.notMem_zero other)⟩
      · intro other member
        rw [serverFds, mem_keys_erase] at member
        have before := conserves.known other member.2
        rw [holdings, Multiset.map_add, Multiset.map_singleton, Multiset.mem_add,
          Multiset.mem_singleton] at before
        exact before.resolve_left member.1
      · rw [writeBuffer, WorkerEffect.frames, List.flatMap_singleton]
        rfl
  | replaced tk tcpStream trace holdings again msgBuf =>
      have grown : Grows self.trace after.trace 0 0 0 {(tk, tcpStream)} 0 [] [] := by
        simpa using (Grows.refl self.trace).one trace
      refine conserves.balance grown ?_ ?_ rfl ?_ ?_ ?_ ?_
      · rw [holdings, add_zero, zero_add]
        exact add_comm _ _
      · rw [msgBuf.streamFds]; rfl
      · rw [msgBuf.serverFds]
        intro other known
        exact .inr (known.resolve_left (Multiset.notMem_zero other))
      · rw [msgBuf.serverFds]
        intro other member
        have before := conserves.known other member
        rw [holdings, Multiset.map_add, Multiset.map_singleton, Multiset.mem_add,
          Multiset.mem_singleton] at before
        rcases before with rfl | there
        · exact again
        · exact there
      · rw [msgBuf.writeBuffer]
        exact List.append_nil _
      · intro distinct
        rw [grown.came, add_zero, conserves.streams, holdings, add_assoc, Multiset.map_add,
          Multiset.map_singleton, Multiset.map_add] at distinct
        obtain ⟨-, -, apart⟩ := Multiset.nodup_add.mp distinct
        have there : tk ∈ after.holdings.map Prod.fst + (total left self.trace
            + total lost self.trace).map Prod.fst := Multiset.mem_add.mpr (.inl again)
        exact absurd there (Multiset.disjoint_left.mp apart (Multiset.mem_singleton_self tk))

theorem wired_new (cfg : Config) : (WorkerLoop.new cfg).worker.poll.Wired where
  read := by
    intro tk ev looked
    have none {tk : Token} {ev : Event}
        : (∅ : TokenMap Event).lookup tk = some ev →
            ev = .unixStreamRead ∨ ev = .serverStreamRead := nofun
    exact Poller.Wired.lookup_insert none (.inl rfl) looked
  write := nofun
  timerq := nofun

/-- In every run whose loop has not ended, the poller is wired and everything conserved. -/
theorem conserved_reach {guard : WorkerLoop → WorkerInput → Prop} {state : WorkerLoop}
    (run : Reach (step cfg crates bincode) guard (.new cfg) state)
    (runs : state.phase.running = true)
    : state.worker.poll.Wired ∧ state.Conserves bincode := by
  refine running_reach (fun state => state.worker.poll.Wired ∧ state.Conserves bincode)
    ⟨wired_new cfg, conserves_new cfg bincode⟩ ?_ run runs
  intro before input after earlier _ takes
  exact ⟨takes.wired earlier.1, (takes.shifts earlier.1).conserves earlier.2⟩

end WorkerLoop
end Casket
