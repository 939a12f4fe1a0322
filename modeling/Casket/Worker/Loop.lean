import Casket.Msgs.Buffers
import Casket.Worker.Poller
import Casket.Worker.PythonThreads

/-! `run_worker`: one iteration is split where it talks to the outside, so that the server
and the python threads may do anything in between. The environment chooses what every
system call returns, and a trace records what the worker did to its streams.
-/

namespace Casket

/-- `UNIX_STREAM_TOKEN`. -/
def unixStreamToken : Token := 0

/-- `NO_TOKEN`. -/
def noToken : Token := 1

structure Worker where
  msgBuf : WorkerMsgBuffer
  poll : Poller
  pythonThreads : PythonThreads
  serverReadingStreams : TokenMap (TcpStream × Reader)
  serverPendingStreams : TokenMap TcpStream
  serverWritingStreams : TokenMap (TcpStream × Writer)
  serverCasketResponses : TokenMap (TcpStream × CasketResponse)

/-- Where the loop stands, with what waits in its three buffers. -/
inductive WorkerPhase where
  | top
  | ticking (events : List (Token × Event))
  | events (events : List (Token × Event)) (timeouts : List (Token × Timeout))
    (results : List ActionResult)
  | actions (results : List ActionResult) (timeouts : List (Token × Timeout))
  | timeouts (timeouts : List (Token × Timeout)) (results : List ActionResult)
  | timeoutActions (results : List ActionResult)
  | reregister
  | returned (result : RuntimeResult)
  | panicked (panic : Panic)

namespace WorkerPhase

/-- Push onto `worker_results`. -/
def pushResults (more : List ActionResult) : WorkerPhase → WorkerPhase
  | .events evs tmos results => .events evs tmos (results ++ more)
  | .timeouts tmos results => .timeouts tmos (results ++ more)
  | phase => phase

/-- Push onto `events_timeout_buf`. -/
def pushTimeout (tk : Token) (timeout : Timeout) : WorkerPhase → WorkerPhase
  | .events evs tmos results => .events evs (tmos ++ [(tk, timeout)]) results
  | phase => phase

/-- The next result of either `worker_results.drain(..)`. -/
def nextResult : WorkerPhase → Option (ActionResult × WorkerPhase)
  | .actions (res :: results) tmos => some (res, .actions results tmos)
  | .timeoutActions (res :: results) => some (res, .timeoutActions results)
  | _ => none

end WorkerPhase

/-- Why the server was told of a token's end: the action or error that was handled. -/
inductive Ending where
  | doneWrite
  | streamEOF
  | casketResponse
  | regError
  | ioError
  | badClient
  deriving DecidableEq, Repr

/-- What the worker did, as it can be seen from outside. A write to a client is marked with
the code of the casket response it is part of. A stream leaves the worker closed, released
by `into_raw_fd`, or replaced in its map, which closes it as well.
-/
inductive WorkerEffect where
  | dequeued (fds : List RawFd)
  | received (tk : Token) (fd : RawFd)
  | read (tk : Token) (size : Nat)
  | wrote (tk : Token) (code : Option UInt16) (size : Nat)
  | sent (tk : Token)
  | taken (tk : Token)
  | delivered (tk : Token)
  | timedOut (tk : Token)
  | logged (tk : Token) (message : String)
  | answered (ending : Ending) (response : Response)
  | closed (tk : Token) (tcpStream : TcpStream)
  | released (tk : Token) (tcpStream : TcpStream)
  | replaced (tk : Token) (tcpStream : TcpStream)
  | handed (bytes : Bytes)

/-- The locals of `run_worker`, with both ends of its socket and the python threads. The
interest the unix stream is registered for is kept apart from those of the clients.
-/
structure WorkerLoop where
  worker : Worker
  unixSocket : UnixSocket
  unixInterest : Interest
  pool : PythonPool
  closing : Bool
  phase : WorkerPhase
  trace : List WorkerEffect

/-- What the calls made for one event return. -/
structure WorkerEventIo where
  unixRead : Except IoError Nat
  ready : Nat
  read : Except IoError Bytes
  rng : Rng
  body : Receiver
  write : Except IoError Nat
  alive : List (List Nat)
  observed : PythonThreads.Observed

/-- One choice of the environment: what the calls up to the next pause return, or what the
server or a python thread does meanwhile.
-/
inductive WorkerInput where
  | top
  | tick (now : SystemTime) (popped : List TimerEntry)
    (polled : Except IoError (List MioEvent))
  | event (io : WorkerEventIo)
  | action (result : Except IoError Unit) (now : SystemTime)
  | timeout (result : Except IoError Unit)
  | reregister (result : Except IoError Unit)
  | advance
  | socket (unixSocket : UnixSocket)
  | codeStart (thread : Nat) (tk : Token) (time : SystemTime)
  | respond (thread : Nat) (tk : Token) (resp : HttpResponse)
  | threadDies (thread : Nat)

namespace WorkerLoop

/-- The state in which the loop is entered: the unix stream is registered for reading. -/
def new (cfg : Config) : WorkerLoop where
  worker :=
    { msgBuf := .new
      poll :=
        { Poller.new with
          eventsRegRead := (∅ : TokenMap Event).insert unixStreamToken .unixStreamRead }
      pythonThreads := .new cfg
      serverReadingStreams := ∅
      serverPendingStreams := ∅
      serverWritingStreams := ∅
      serverCasketResponses := ∅ }
  unixSocket := .pair
  unixInterest := ⟨true, false⟩
  pool := .new cfg.numThreads
  closing := false
  phase := .top
  trace := []

-----------------------------------------------------------------------------------------
-- Small changes of the locals
-----------------------------------------------------------------------------------------

def note (self : WorkerLoop) (effects : List WorkerEffect) : WorkerLoop :=
  { self with trace := self.trace ++ effects }

def panics (self : WorkerLoop) (panic : Panic) : WorkerLoop :=
  { self with phase := .panicked panic }

def returns (self : WorkerLoop) (result : RuntimeResult) : WorkerLoop :=
  { self with phase := .returned result }

def pushResults (self : WorkerLoop) (more : List ActionResult) : WorkerLoop :=
  { self with phase := self.phase.pushResults more }

def pushTimeout (self : WorkerLoop) (tk : Token) (timeout : Timeout) : WorkerLoop :=
  { self with phase := self.phase.pushTimeout tk timeout }

def withPoll (self : WorkerLoop) (poll : Poller) : WorkerLoop :=
  { self with worker := { self.worker with poll } }

/-- The stream that an insertion at its token replaces is dropped. -/
def replacing (tk : Token) : Option TcpStream → List WorkerEffect
  | none => []
  | some tcpStream => [.replaced tk tcpStream]

/-- `server_reading_streams.insert(tk, (tcp_stream, reader))`. -/
def insertReading (self : WorkerLoop) (tk : Token) (tcpStream : TcpStream) (reader : Reader)
    : WorkerLoop :=
  let streams := self.worker.serverReadingStreams
  { self with
      worker :=
        { self.worker with
          serverReadingStreams := streams.insert tk (tcpStream, reader) } }.note
    (replacing tk ((streams.lookup tk).map Prod.fst))

/-- `server_pending_streams.insert(tk, tcp_stream)`. -/
def insertPending (self : WorkerLoop) (tk : Token) (tcpStream : TcpStream) : WorkerLoop :=
  let streams := self.worker.serverPendingStreams
  { self with
      worker := { self.worker with serverPendingStreams := streams.insert tk tcpStream } }.note
    (replacing tk (streams.lookup tk))

/-- `server_writing_streams.insert(tk, (tcp_stream, writer))`. -/
def insertWriting (self : WorkerLoop) (tk : Token) (tcpStream : TcpStream) (writer : Writer)
    : WorkerLoop :=
  let streams := self.worker.serverWritingStreams
  { self with
      worker :=
        { self.worker with
          serverWritingStreams := streams.insert tk (tcpStream, writer) } }.note
    (replacing tk ((streams.lookup tk).map Prod.fst))

/-- `server_casket_responses.insert(tk, (tcp_stream, casket_resp))`. -/
def insertCasket (self : WorkerLoop) (tk : Token) (tcpStream : TcpStream)
    (casketResp : CasketResponse)
    : WorkerLoop :=
  let streams := self.worker.serverCasketResponses
  { self with
      worker :=
        { self.worker with
          serverCasketResponses := streams.insert tk (tcpStream, casketResp) } }.note
    (replacing tk ((streams.lookup tk).map Prod.fst))

-----------------------------------------------------------------------------------------
-- `handle_action` and `handle_error`
-----------------------------------------------------------------------------------------

/-- A `resp_*` call, after which the stream of the token is gone. -/
def answer (self : WorkerLoop) (ending : Ending)
    (responded : Except Panic (WorkerMsgBuffer × Response)) (gone : WorkerEffect)
    : WorkerLoop :=
  match responded with
  | .error panic => self.panics panic
  | .ok (msgBuf, response) =>
      { self with worker := { self.worker with msgBuf } }.note
        [.answered ending response, gone]

/-- Dropping a stream closes its descriptor, which ends its registration. -/
def dropped (self : WorkerLoop) (tk : Token) : WorkerLoop :=
  self.withPoll { self.worker.poll with registry := self.worker.poll.registry.erase tk }

/-- `worker.msg_buf.resp_stream_reg_error(tk, e); return;`. -/
def regError (bincode : Bincode) (self : WorkerLoop) (tk : Token) (tcpStream : TcpStream)
    (e : IoError)
    : WorkerLoop :=
  (self.dropped tk).answer .regError (self.worker.msgBuf.respStreamRegError bincode tk e)
    (.closed tk tcpStream)

/-- A call on the poller for a stream, and what is done with the stream if it succeeds. -/
def called (bincode : Bincode) (self : WorkerLoop) (tk : Token) (tcpStream : TcpStream)
    (poll : Poller) (result : Except IoError Unit) (next : WorkerLoop → WorkerLoop)
    : WorkerLoop :=
  match result with
  | .error e => (self.withPoll poll).regError bincode tk tcpStream e
  | .ok () => next (self.withPoll poll)

/-- `resp_stream_done_ok(tk, tcp_stream.into_raw_fd(), keep_alive)`. -/
def doneOk (bincode : Bincode) (self : WorkerLoop) (ending : Ending) (tk : Token)
    (tcpStream : TcpStream) (keepAlive : Bool)
    : WorkerLoop :=
  self.answer ending
    (self.worker.msgBuf.respStreamDoneOk bincode tk tcpStream.fd keepAlive)
    (.released tk tcpStream)

/-- `worker.poll.timer_event(tk, time + timeout, event)`. -/
def armTimer (self : WorkerLoop) (tk : Token) (time : SystemTime) (timeout : Duration)
    (event : Event) (next : WorkerLoop → WorkerLoop)
    : WorkerLoop :=
  match time.add? timeout with
  | none => self.panics .timeOverflow
  | some time => next (self.withPoll (self.worker.poll.timerEvent tk time event))

/-- `handle_action`, given the result of its call on the registry and the clock. -/
def handleAction (cfg : Config) (bincode : Bincode) (self : WorkerLoop) (act : Action)
    (result : Except IoError Unit) (now : SystemTime)
    : WorkerLoop :=
  let poll := self.worker.poll
  match act with
  | .newServerRequest tk tcpStream =>
      self.called bincode tk tcpStream (poll.registerRead tk .serverStreamRead result) result
        fun self =>
          self.armTimer tk now cfg.requestReadTimeout .requestReadTimeout fun self =>
            self.insertReading tk tcpStream .new
  | .serverContinueRead tk reader tcpStream =>
      self.called bincode tk tcpStream (poll.reregisterRead tk .serverStreamRead result)
        result fun self => self.insertReading tk tcpStream reader
  | .serverReadDone tk httpReq tcpStream =>
      self.called bincode tk tcpStream (poll.deregister tk result) result fun self =>
        { self with
            worker :=
              { self.worker with
                pythonThreads :=
                  self.worker.pythonThreads.queueHttpReq tk httpReq } }.insertPending tk
          tcpStream
  | .serverStreamEOF tk tcpStream =>
      self.called bincode tk tcpStream (poll.deregister tk result) result fun self =>
        self.doneOk bincode .streamEOF tk tcpStream false
  | .serverNewResponse tk httpResp =>
      match self.worker.serverPendingStreams.lookup tk with
      | none => self.panics .pendingStream
      | some tcpStream =>
          { self with
              worker :=
                { self.worker with
                  serverPendingStreams :=
                    self.worker.serverPendingStreams.erase tk } }.called bincode tk tcpStream
            (poll.registerWrite tk .serverStreamWrite result) result fun self =>
              self.insertWriting tk tcpStream (.new httpResp)
  | .serverContinueWrite tk writer tcpStream =>
      self.called bincode tk tcpStream (poll.reregisterWrite tk .serverStreamWrite result)
        result fun self => self.insertWriting tk tcpStream writer
  | .serverDoneWrite tk httpResp tcpStream =>
      (self.note [.logged tk "sent HTTP response"]).called bincode tk tcpStream
        (poll.deregister tk result) result fun self =>
          self.doneOk bincode .doneWrite tk tcpStream httpResp.keepAlive
  | .serverCasketResponseNew tk tcpStream casketResp =>
      self.called bincode tk tcpStream (poll.registerWrite tk .casketResponseWrite result)
        result fun self => self.insertCasket tk tcpStream casketResp
  | .serverCasketResponseContinue tk tcpStream casketResp =>
      self.called bincode tk tcpStream (poll.reregisterWrite tk .casketResponseWrite result)
        result fun self => self.insertCasket tk tcpStream casketResp
  | .serverCasketResponseDone tk tcpStream _ =>
      self.called bincode tk tcpStream (poll.deregister tk result) result fun self =>
        (self.note [.logged tk "casket sent error http response"]).doneOk bincode
          .casketResponse tk tcpStream false
  | .serverPythonCodeTimeoutNew tk st =>
      self.armTimer tk st cfg.pythonCodeTimeout .pythonCodeTimeout id

/-- The line `handle_error` logs. -/
def errorLine : HttpError → String
  | .io _ _ => "i/o failed on tcp stream"
  | .headerParse _ => "failed to parse http header"
  | .badValue _ => "invalid http"

/-- The call `handle_error` makes; a failed parse and a bad value are the client's fault. -/
def respError (bincode : Bincode) (msgBuf : WorkerMsgBuffer) (tk : Token)
    : HttpError → Ending × Except Panic (WorkerMsgBuffer × Response)
  | .io _ err => (.ioError, msgBuf.respIoError bincode tk err)
  | .headerParse _ => (.badClient, msgBuf.respBadClient bincode tk)
  | .badValue _ => (.badClient, msgBuf.respBadClient bincode tk)

/-- `handle_error`. The stream is dropped with the error. -/
def handleError (bincode : Bincode) (self : WorkerLoop) (error : ActionError)
    (result : Except IoError Unit)
    : WorkerLoop :=
  (self.note [.logged error.token (errorLine error.error)]).called bincode error.token
    error.tcpStream (self.worker.poll.deregister error.token result) result fun self =>
      let (ending, responded) :=
        respError bincode self.worker.msgBuf error.token error.error
      (self.dropped error.token).answer ending responded
        (.closed error.token error.tcpStream)

/-- One result of either drain. -/
def handleResult (cfg : Config) (bincode : Bincode) (self : WorkerLoop) (res : ActionResult)
    (result : Except IoError Unit) (now : SystemTime)
    : WorkerLoop :=
  match res with
  | .ok act => self.handleAction cfg bincode act result now
  | .error e => self.handleError bincode e result

-----------------------------------------------------------------------------------------
-- The events
-----------------------------------------------------------------------------------------

def unixStreamRead (bincode : Bincode) (self : WorkerLoop) (io : WorkerEventIo)
    : Option WorkerLoop :=
  (self.unixSocket.workerReads self.worker.msgBuf.readRoom io.ready io.unixRead).map
    fun (read, dequeued, unixSocket) =>
      match self.worker.msgBuf.readUnixStream bincode read dequeued with
      | .error panic => self.panics panic
      | .ok (_, .error e) => self.returns (.error (.io "worker couldn't read unix stream" e))
      | .ok (msgBuf, .ok _) =>
          { self with worker := { self.worker with msgBuf }, unixSocket }.note
            [.dequeued dequeued]

def unixStreamWrite (self : WorkerLoop) (io : WorkerEventIo) : Option WorkerLoop :=
  if io.write.toOption.getD 0 ≤ self.worker.msgBuf.writeBuffer.length then
    let (msgBuf, result) := self.worker.msgBuf.writeUnixStream io.write
    match result with
    | .error e => some (self.returns (.error (.io "worker couldn't read unix stream" e)))
    | .ok written =>
        some
          ({ self with
              worker := { self.worker with msgBuf }
              unixSocket := self.unixSocket.workerWrote result }.note [.handed written])
  else
    none

/-- The descriptor becomes a stream; the limit is tested against the requests sent. -/
def newStreamFd (cfg : Config) (self : WorkerLoop) (tk : Token) (fd : RawFd) : WorkerLoop :=
  if cfg.maxRequests ≤ self.worker.pythonThreads.numPendingReqs then
    self.pushResults [.ok (new503ServiceBusy tk ⟨fd⟩)]
  else
    self.pushResults [.ok (.newServerRequest tk ⟨fd⟩)]

/-- The bytes a read returns are no more than it is given room for. -/
def serverStreamRead (crates : Crates) (self : WorkerLoop) (tk : Token) (io : WorkerEventIo)
    : Option WorkerLoop :=
  match self.worker.serverReadingStreams.lookup tk with
  | none => some (self.panics .readingStream)
  | some (tcpStream, reader) =>
      let size := (io.read.toOption.getD []).length
      if size ≤ reader.room then
        let self :=
          { self with
              worker :=
                { self.worker with
                  serverReadingStreams :=
                    self.worker.serverReadingStreams.erase tk } }.note [.read tk size]
        match eventServerStreamRead crates io.rng tk tcpStream reader io.read with
        | .error panic => some (self.panics panic)
        | .ok res => some (self.pushResults [res])
      else
        none

def queuedRequests (self : WorkerLoop) (io : WorkerEventIo) : WorkerLoop :=
  match self.worker.pythonThreads.sendQueuedRequests self.pool io.alive with
  | .error panic => self.panics panic
  | .ok (_, _, .error e) => self.returns (.error e)
  | .ok (pythonThreads, pool, .ok ()) =>
      let sent := (pool.outstanding.drop self.pool.outstanding.length).map Prod.snd
      { self with worker := { self.worker with pythonThreads }, pool }.note (sent.map .sent)

/-- The token whose response an action hands on. -/
def newResponse? : ActionResult → Option Token
  | .ok (.serverNewResponse tk _) => some tk
  | _ => none

def pollPythonResponses (self : WorkerLoop) (io : WorkerEventIo) : WorkerLoop :=
  match self.worker.pythonThreads.takeResponses self.pool [] io.observed with
  | .error panic => self.panics panic
  | .ok (_, _, _, .error e) => self.returns (.error e)
  | .ok (pythonThreads, pool, results, .ok ()) =>
      let taken := (self.pool.responses.take io.observed.responses).map Prod.fst
      let delivered := results.filterMap newResponse?
      ({ self with worker := { self.worker with pythonThreads }, pool }.pushResults
          results).note
        (taken.map WorkerEffect.taken ++ delivered.map WorkerEffect.delivered)

/-- The channel of the body holds whatever its python thread has sent by now. -/
def serverStreamWrite (self : WorkerLoop) (tk : Token) (io : WorkerEventIo)
    : Option WorkerLoop :=
  match self.worker.serverWritingStreams.lookup tk with
  | none => some (self.panics .writingStream)
  | some (tcpStream, writer) =>
      let writer := { writer with httpResp := writer.httpResp.overBody fun _ => io.body }
      let size := io.write.toOption.getD 0
      if size ≤ writer.takeChunk.buffer.length then
        let self :=
          { self with
              worker :=
                { self.worker with
                  serverWritingStreams :=
                    self.worker.serverWritingStreams.erase tk } }.note [.wrote tk none size]
        match eventServerStreamWrite tk tcpStream writer io.write with
        | .error panic => some (self.panics panic)
        | .ok res => some (self.pushResults [res])
      else
        none

def casketResponseWrite (self : WorkerLoop) (tk : Token) (io : WorkerEventIo)
    : Option WorkerLoop :=
  match self.worker.serverCasketResponses.lookup tk with
  | none => some (self.panics .casketResponse)
  | some (tcpStream, casketResp) =>
      let size := io.write.toOption.getD 0
      if size ≤ casketResp.response.length - casketResp.bytesSent then
        let self :=
          { self with
              worker :=
                { self.worker with
                  serverCasketResponses :=
                    self.worker.serverCasketResponses.erase tk } }.note
            [.wrote tk (some casketResp.code) size]
        match eventCasketResponseWrite tk tcpStream casketResp io.write with
        | .error panic => some (self.panics panic)
        | .ok res => some (self.pushResults [res])
      else
        none

/-- One event. Calls cannot return more bytes than there are or than there is room for. -/
def handleEvent (cfg : Config) (crates : Crates) (bincode : Bincode) (self : WorkerLoop)
    (tk : Token) (ev : Event) (io : WorkerEventIo)
    : Option WorkerLoop :=
  match ev with
  | .ctrlC => some { self with closing := true }
  | .unixStreamRead => self.unixStreamRead bincode io
  | .unixStreamWrite => self.unixStreamWrite io
  | .newStreamFd fd => some (self.newStreamFd cfg tk fd)
  | .serverStreamRead => self.serverStreamRead crates tk io
  | .queuedRequests => some (self.queuedRequests io)
  | .pollPythonResponses => some (self.pollPythonResponses io)
  | .serverStreamWrite => self.serverStreamWrite tk io
  | .requestReadTimeout => some (self.pushTimeout tk .requestRead)
  | .casketResponseWrite => self.casketResponseWrite tk io
  | .pythonCodeTimeout => some (self.pushTimeout tk .pythonCode)

-----------------------------------------------------------------------------------------
-- The loop
-----------------------------------------------------------------------------------------

/-- The test at the top of the loop. -/
def finished (self : WorkerLoop) : Bool :=
  self.closing && !self.worker.msgBuf.hasDataToSend
  && self.worker.pythonThreads.numPendingReqs == 0
  && !self.worker.pythonThreads.hasQueuedReqs
  && self.worker.serverWritingStreams.keys.isEmpty

/-- `while let Some((tk, fd)) = worker.msg_buf.next_stream_fd()`; each turn takes one of the
waiting descriptors.
-/
def takeStreamFds : Nat → WorkerMsgBuffer → List (Token × RawFd) × WorkerMsgBuffer
  | 0, msgBuf => ([], msgBuf)
  | turns + 1, msgBuf =>
      match msgBuf.nextStreamFd with
      | none => ([], msgBuf)
      | some (stream, msgBuf) =>
          let (streams, msgBuf) := takeStreamFds turns msgBuf
          (stream :: streams, msgBuf)

/-- The event pushed for a new stream, and what the trace keeps of it. -/
def streamEvent (stream : Token × RawFd) : Token × Event := (stream.1, .newStreamFd stream.2)

def streamReceived (stream : Token × RawFd) : WorkerEffect := .received stream.1 stream.2

/-- The events the loop pushes for the python threads. -/
def polls (self : WorkerLoop) : List (Token × Event) :=
  (if 0 < self.worker.pythonThreads.numPendingReqs then
    [(noToken, .pollPythonResponses)]
  else
    [])
  ++ (if self.worker.pythonThreads.hasQueuedReqs then
    [(noToken, .queuedRequests)]
  else
    [])

/-- From the top of the loop to the poll. -/
def loopTop (self : WorkerLoop) : WorkerLoop :=
  if self.finished then
    self.returns (.ok ())
  else
    let (streams, msgBuf) :=
      takeStreamFds self.worker.msgBuf.streamFds.length self.worker.msgBuf
    { self with
        worker := { self.worker with msgBuf }
        phase := .ticking (streams.map streamEvent ++ self.polls) }.note
      (streams.map streamReceived)

/-- `worker.poll.tick(&mut events_buf, timeout)?`. -/
def tick (self : WorkerLoop) (events : List (Token × Event)) (now : SystemTime)
    (popped : List TimerEntry) (polled : Except IoError (List MioEvent))
    : WorkerLoop :=
  match self.worker.poll.tick events now popped polled with
  | .error panic => self.panics panic
  | .ok (_, .error e) => self.returns (.error e)
  | .ok (poll, .ok events) => { self.withPoll poll with phase := .events events [] [] }

/-- One timeout: a request that is still being read, or executed, gets a casket response. -/
def handleTimeout (self : WorkerLoop) (tk : Token) (timeout : Timeout)
    (result : Except IoError Unit)
    : WorkerLoop :=
  match timeout with
  | .requestRead =>
      match self.worker.serverReadingStreams.lookup tk with
      | none => self
      | some (tcpStream, _) =>
          match result with
          | .error e =>
              self.returns (.error (.io "worker couldn't deregister stream poll" e))
          | .ok () =>
              { self with
                  worker :=
                    { self.worker with
                      serverReadingStreams := self.worker.serverReadingStreams.erase tk
                      poll := self.worker.poll.deregister tk result } }.pushResults
                [.ok (new408Timeout tk tcpStream)]
  | .pythonCode =>
      match self.worker.serverPendingStreams.lookup tk with
      | none => self
      | some tcpStream =>
          ({ self with
              worker :=
                { self.worker with
                  serverPendingStreams := self.worker.serverPendingStreams.erase tk
                  pythonThreads :=
                    self.worker.pythonThreads.timeoutRequest tk } }.pushResults
              [.ok (new504GatewayTimeout tk tcpStream)]).note
            [.timedOut tk]

/-- Put the unix stream in R or RW mode. Its registration is not one of the clients'. -/
def reregisterUnix (self : WorkerLoop) (result : Except IoError Unit) : WorkerLoop :=
  let poll :=
    if self.worker.msgBuf.hasDataToSend then
      self.worker.poll.reregisterRw unixStreamToken .unixStreamRead .unixStreamWrite result
    else
      self.worker.poll.reregisterRead unixStreamToken .unixStreamRead result
  match result with
  | .error e => self.returns (.error (.io "worker failed to reregister unix stream" e))
  | .ok () =>
      { self.withPoll { poll with registry := self.worker.poll.registry } with
        unixInterest := ⟨true, self.worker.msgBuf.hasDataToSend⟩
        phase := .top }

/-- The loop up to its next pause. Inputs that do not fit the phase are refused. -/
def step (cfg : Config) (crates : Crates) (bincode : Bincode) (self : WorkerLoop)
    : WorkerInput → Option WorkerLoop :=
  fun input =>
    match self.phase, input with
    | .top, .top => some self.loopTop
    | .ticking events, .tick now popped polled =>
        if self.worker.poll.Pops now popped then
          some (self.tick events now popped polled)
        else
          none
    | .events ((tk, ev) :: events) timeouts results, .event io =>
        { self with phase := .events events timeouts results }.handleEvent cfg crates
          bincode tk ev io
    | .events [] timeouts results, .advance =>
        some { self with phase := .actions results timeouts }
    | .actions [] timeouts, .advance => some { self with phase := .timeouts timeouts [] }
    | .timeouts ((tk, timeout) :: timeouts) results, .timeout result =>
        some ({ self with phase := .timeouts timeouts results }.handleTimeout tk timeout result)
    | .timeouts [] results, .advance => some { self with phase := .timeoutActions results }
    | .timeoutActions [], .advance => some { self with phase := .reregister }
    | .reregister, .reregister result => some (self.reregisterUnix result)
    | phase, .action result now =>
        phase.nextResult.map fun (res, phase) =>
          { self with phase }.handleResult cfg bincode res result now
    | _, .socket unixSocket => some { self with unixSocket }
    | _, .codeStart thread tk time =>
        (self.pool.codeStart thread tk time).map fun pool => { self with pool }
    | _, .respond thread tk resp =>
        (self.pool.respond thread tk resp).map fun pool => { self with pool }
    | _, .threadDies thread => some { self with pool := self.pool.threadDies thread }
    | _, _ => none

end WorkerLoop
end Casket
