import Casket.Server.UnixStreams
import Mathlib.Data.UInt

/-! `run_server`: one iteration is split where it talks to the outside, so that anything
else may happen in between. The environment chooses what every system call returns.
-/

namespace Casket

/-- `Token(0)`, the listener's. -/
def serverToken : Token := 0

/-- `NEW_STREAM_COUNT_INC`: the distance of two connections' first tokens. -/
def newStreamCountInc : Nat := 2 ^ 24

/-- `KEEP_ALIVE_COUNT_INC`: the distance of two requests' tokens on one connection. -/
def keepAliveCountInc : Token := 2 ^ 7

/-- Where the loop stands. Tokens and events still to be handled are carried along. -/
inductive ServerPhase where
  | top
  | keepAlive (tks : List Token)
  | closing (tks : List Token)
  | polling
  | events (events : List MioEvent)
  | returned (result : RuntimeResult)
  | panicked (panic : Panic)
  deriving DecidableEq

/-- How a client stream left the server's maps for good. -/
inductive Closing where
  | dropped
  | shutDown
  deriving DecidableEq, Repr

/-- The locals of `run_server`, the registrations its poll instance holds, and a ledger of
the tokens it has assigned and the streams it has given up.
-/
structure Server where
  unixStreams : List UnixStream
  clientStreamCount : Nat
  readingStreams : TokenMap TcpStream
  processingStreams : TokenMap TcpStream
  runShutdown : Bool
  ctrlcInstant : Option SystemTime
  registry : TokenMap Interest
  phase : ServerPhase
  assigned : List Token
  closed : List (Token × Closing)

/-- What the system calls made for one polled event return. -/
structure EventIo where
  accept : Option TcpStream
  registers : Bool
  read : Except IoError Nat
  accepted : Nat
  write : Except IoError Nat

/-- One choice of the environment: what the calls up to the next pause return. -/
inductive ServerInput where
  | top (elapsed : Option Duration) (closeNow : Bool) (registers : Token → Bool)
  | keepAlive (registers : Bool)
  | close
  | poll (events : Option (List MioEvent)) (running : Bool) (now : SystemTime)
      (deregisters : Token → Bool)
  | event (io : EventIo)
  | advance

namespace Server

/-- `tk_num` starts at 1 and the listener is registered for reading. -/
def new (workers : Nat) : Server where
  unixStreams := (List.range workers).map fun n => .new (UInt64.ofNat (n + 1)) .pair
  clientStreamCount := 0
  readingStreams := ∅
  processingStreams := ∅
  runShutdown := false
  ctrlcInstant := none
  registry := (∅ : TokenMap Interest).insert serverToken ⟨true, false⟩
  phase := .top
  assigned := []
  closed := []

/-- The value `client_stream_count.next()` returns: the counter steps by the increment. -/
def nextClientToken (server : Server) : Token :=
  UInt64.ofNat ((server.clientStreamCount + 1) * newStreamCountInc)

/-- Give a stream up; dropping it closes its descriptor, which ends its registration. -/
def giveUp (server : Server) (tk : Token) (closing : Closing) : Server :=
  { server with
    registry := server.registry.erase tk
    closed := server.closed ++ [(tk, closing)] }

/-- `for (_, tcp_stream) in processing_streams.drain() { tcp_stream.shutdown(..) }`. -/
def shutdownProcessing (server : Server) : Server :=
  { server with
    processingStreams := ∅
    closed :=
      server.closed ++ server.processingStreams.keys.map fun tk => (tk, .shutDown) }

/-- `errors.extend(unix_streams.reregister(..))` and the tokens to keep alive. -/
def startIteration (server : Server) (registers : Token → Bool) : Server :=
  let (unixStreams, registry) :=
    UnixStreams.reregister registers server.unixStreams server.registry
  match UnixStreams.nextStreamTks unixStreams with
  | .error panic => { server with phase := .panicked panic }
  | .ok (tks, unixStreams) =>
      { server with unixStreams, registry, phase := .keepAlive tks }

/-- The three exit tests of the loop, then the start of the iteration. -/
def loopTop (cfg : Config) (server : Server) (elapsed : Option Duration) (closeNow : Bool)
    (registers : Token → Bool)
    : Server :=
  if server.runShutdown && server.processingStreams.keys.isEmpty then
    { server with phase := .returned (.ok ()) }
  else
    match server.ctrlcInstant, elapsed with
    | some _, none => { server with phase := .returned (.ok ()) }
    | some _, some elapsed =>
        if cfg.ctrlcWaitTime ≤ elapsed then
          { server.shutdownProcessing with phase := .returned (.ok ()) }
        else if closeNow then
          { server with phase := .returned (.ok ()) }
        else
          server.startIteration registers
    | none, _ =>
        if closeNow then
          { server with phase := .returned (.ok ()) }
        else
          server.startIteration registers

/-- One stream a worker handed back for the next request. -/
def keepAliveStream (server : Server) (tk : Token) (registers : Bool) : Server :=
  match server.processingStreams.lookup tk with
  | none => { server with phase := .panicked .processingStream }
  | some tcpStream =>
      let newTk := tk + keepAliveCountInc
      let server :=
        { server with
          processingStreams := server.processingStreams.erase tk
          assigned := server.assigned ++ [newTk] }
      if server.runShutdown then
        server.giveUp tk .shutDown
      else if registers then
        { server with
          registry := server.registry.insert newTk ⟨true, false⟩
          readingStreams := server.readingStreams.insert newTk tcpStream }
      else
        server.giveUp tk .dropped

/-- `for tk in unix_streams.next_stream_close_tks()`: collect the tokens. -/
def takeCloseTks (server : Server) : Server :=
  match UnixStreams.nextStreamCloseTks server.unixStreams with
  | .error panic => { server with phase := .panicked panic }
  | .ok (tks, unixStreams) => { server with unixStreams, phase := .closing tks }

/-- One stream a worker is done with. -/
def closeStream (server : Server) (tk : Token) : Server :=
  match server.processingStreams.lookup tk with
  | none => { server with phase := .panicked .processingStream }
  | some _ =>
      { server with processingStreams := server.processingStreams.erase tk }.giveUp tk
        .shutDown

/-- `shutdown`: deregister the listener, and deregister, shut down and drop every stream
that waits for a request; a stream whose deregistration fails is only dropped.
-/
def shutdown (server : Server) (deregisters : Token → Bool) : Server :=
  let idle := server.readingStreams.keys
  let registry :=
    if deregisters serverToken then server.registry.erase serverToken else server.registry
  { server with
    readingStreams := ∅
    registry := idle.foldl (fun registry tk => registry.erase tk) registry
    closed :=
      server.closed
      ++ idle.map fun tk => (tk, if deregisters tk then .shutDown else .dropped) }

/-- After the poll: shut down on a failed poll or a SIGINT, then turn to the events. A
failed poll leaves the event buffer empty.
-/
def polled (server : Server) (events : Option (List MioEvent)) (running : Bool)
    (now : SystemTime) (deregisters : Token → Bool)
    : Server :=
  let server :=
    if (events.isNone || !running) && !server.runShutdown then
      { server.shutdown deregisters with ctrlcInstant := some now, runShutdown := true }
    else
      server
  { server with phase := .events (events.getD []) }

/-- An event of the listener: accept one connection, if there is one. -/
def acceptStream (cfg : Config) (server : Server) (io : EventIo) : Server :=
  match io.accept with
  | none => server
  | some tcpStream =>
      let tk := server.nextClientToken
      let server :=
        { server with
          clientStreamCount := server.clientStreamCount + 1
          assigned := server.assigned ++ [tk] }
      if cfg.maxConns
          ≤ server.readingStreams.keys.length + server.processingStreams.keys.length then
        server.giveUp tk .dropped
      else if io.registers then
        { server with
          registry := server.registry.insert tk ⟨true, false⟩
          readingStreams := server.readingStreams.insert tk tcpStream }
      else
        server.giveUp tk .dropped

/-- An event of a stream that waits for a request: hand it to a worker. -/
def dispatchStream (server : Server) (tk : Token) (tcpStream : TcpStream) (io : EventIo)
    : Server :=
  let server := { server with readingStreams := server.readingStreams.erase tk }
  if io.registers then
    match UnixStreams.msgSendTcpStream server.unixStreams tk tcpStream.fd with
    | .error panic => { server with phase := .panicked panic }
    | .ok unixStreams =>
        { server with
          unixStreams
          registry := server.registry.erase tk
          processingStreams := server.processingStreams.insert tk tcpStream }
  else
    server.giveUp tk .dropped

/-- An event of a worker socket: read if readable, then write if writable. -/
def unixStreamEvent (bincode : Bincode) (server : Server) (n : Nat) (stream : UnixStream)
    (ev : MioEvent) (io : EventIo)
    : Option Server :=
  let read :=
    if ev.readable then stream.readStream bincode io.read else some (.ok stream)
  read.map fun
    | .error panic => { server with phase := .panicked panic }
    | .ok stream =>
        let stream :=
          if ev.writable then stream.writeStream bincode io.accepted io.write else stream
        { server with unixStreams := server.unixStreams.set n stream }

/-- One polled event: the listener's, a waiting stream's or a worker socket's token. -/
def handleEvent (cfg : Config) (bincode : Bincode) (server : Server) (ev : MioEvent)
    (io : EventIo)
    : Option Server :=
  if ev.token = serverToken then
    some (server.acceptStream cfg io)
  else
    match server.readingStreams.lookup ev.token with
    | some tcpStream => some (server.dispatchStream ev.token tcpStream io)
    | none =>
        match UnixStreams.position? server.unixStreams ev.token with
        | some n =>
            match server.unixStreams[n]? with
            | some stream => server.unixStreamEvent bincode n stream ev io
            | none => none
        | none => some { server with phase := .returned (.error .unknownToken) }

/-- The loop up to its next pause. Inputs that do not fit the phase are refused. -/
def step (cfg : Config) (bincode : Bincode) (server : Server)
    : ServerInput → Option Server :=
  fun input =>
    match server.phase, input with
    | .top, .top elapsed closeNow registers =>
        some (server.loopTop cfg elapsed closeNow registers)
    | .keepAlive (tk :: tks), .keepAlive registers =>
        some ({ server with phase := .keepAlive tks }.keepAliveStream tk registers)
    | .keepAlive [], .advance => some server.takeCloseTks
    | .closing (tk :: tks), .close =>
        some ({ server with phase := .closing tks }.closeStream tk)
    | .closing [], .advance => some { server with phase := .polling }
    | .polling, .poll events running now deregisters =>
        some (server.polled events running now deregisters)
    | .events (ev :: evs), .event io =>
        { server with phase := .events evs }.handleEvent cfg bincode ev io
    | .events [], .advance => some { server with phase := .top }
    | _, _ => none

end Server
end Casket
