import Casket.Pythonexec.Spawn
import Casket.Worker.Steps
import Mathlib.Logic.Function.Basic

/-! One worker process: the loop of `run_worker`, the python threads that `spawn` started for
it, and the channels between them. The worker's view of its threads is kept beside them.
-/

namespace Casket

/-- A worker process. Each body channel is known by the key of its request. What was read and
answered, what each body was sent, the writes with their streams and the bytes these accepted,
and the lines of the threads are kept, and the keys of bodies whose thread ended before they
did.
-/
structure WorkerProcess where
  loop : WorkerLoop
  threads : List PythonThread
  bodies : Token → Receiver
  yielded : Token → List Bytes
  cut : List Token
  read : List (Token × HttpRequest)
  answered : List Job
  writes : List (Token × TcpStream × Bytes)
  lines : List ((Token × HttpRequest) × ThreadLine)

/-- The loop goes on, or a thread does. -/
inductive ProcessInput where
  | loop (input : WorkerInput)
  | thread (n : Nat) (act : ThreadAct)

/-- The event that is handled next. -/
def WorkerPhase.nextEvent? : WorkerPhase → Option (Token × Event)
  | .events (item :: _) _ _ => some item
  | _ => none

/-- What a process leaves to its threads. -/
def WorkerInput.ofThread : WorkerInput → Bool
  | .codeStart _ _ _ | .respond _ _ _ | .threadDies _ => true
  | _ => false

/-- The channel after `try_recv`. -/
def Receiver.afterTry (self : Receiver) : Receiver :=
  match self.tryRecv with
  | .ok (_, rest) => rest
  | .error _ => self

/-- The request that was read, if a result says so. -/
def readDone? : ActionResult → Option (Token × HttpRequest)
  | .ok (.serverReadDone tk httpReq _) => some (tk, httpReq)
  | _ => none

/-- The writer as it finds the channel of its body. -/
def Writer.overBody (self : Writer) (body : Receiver) : Writer :=
  { self with httpResp := self.httpResp.overBody fun _ => body }

/-- The `server` of `spawn`. -/
def Config.server (cfg : Config) : String × UInt16 := (cfg.hostname, cfg.port)

namespace WorkerProcess

/-- The process in which the loop is entered, with its threads. -/
def new (cfg : Config) : WorkerProcess where
  loop := .new cfg
  threads := List.replicate cfg.numThreads .new
  bodies := fun _ => ⟨[], true⟩
  yielded := fun _ => []
  cut := []
  read := []
  answered := []
  writes := []
  lines := []

-----------------------------------------------------------------------------------------
-- The loop
-----------------------------------------------------------------------------------------

/-- The threads that have not ended. -/
def living (self : WorkerProcess) : List Nat :=
  (List.range self.threads.length).filter fun n =>
    (self.threads[n]?).any fun thread => thread.phase.alive

/-- A response is written with what its thread has sent by now. -/
def withBody (self : WorkerProcess) (io : WorkerEventIo) : WorkerEventIo :=
  match self.loop.phase.nextEvent? with
  | some (tk, .serverStreamWrite) => { io with body := self.bodies tk }
  | _ => io

/-- What an input is to the loop. -/
def loopInput (self : WorkerProcess) : WorkerInput → WorkerInput
  | .event io => .event (self.withBody io)
  | input => input

theorem loopInput_of_ne {self : WorkerProcess} {input : WorkerInput}
    (other : ∀ io, input ≠ .event io)
    : self.loopInput input = input := by
  cases input with
  | event io => exact absurd rfl (other io)
  | _ => rfl

/-- The channels after an event: a write tries to receive one chunk. -/
def taken (self : WorkerProcess) : Token → Receiver :=
  match self.loop.phase.nextEvent? with
  | some (tk, .serverStreamWrite) =>
      match self.loop.worker.serverWritingStreams.lookup tk with
      | some (_, writer) =>
          if writer.httpResp.respBody.isSome then
            Function.update self.bodies tk (self.bodies tk).afterTry
          else
            self.bodies
      | none => self.bodies
  | _ => self.bodies

/-- The bytes the client under a token has accepted. -/
def accepted (self : WorkerProcess) (tk : Token) : Bytes :=
  (self.writes.filter (·.1 = tk)).flatMap (·.2.2)

/-- The stream an event writes to, and what that accepts of a response or of a casket
response.
-/
def write? (self : WorkerProcess) (io : WorkerEventIo) : Option (Token × TcpStream × Bytes) :=
  match self.loop.phase.nextEvent? with
  | some (tk, .serverStreamWrite) =>
      (self.loop.worker.serverWritingStreams.lookup tk).map fun (tcpStream, writer) =>
        (tk, tcpStream,
          (writer.overBody (self.bodies tk)).takeChunk.buffer.take (io.write.toOption.getD 0))
  | some (tk, .casketResponseWrite) =>
      (self.loop.worker.serverCasketResponses.lookup tk).map fun (tcpStream, casketResp) =>
        (tk, tcpStream,
          (casketResp.response.drop casketResp.bytesSent).take (io.write.toOption.getD 0))
  | _ => none

/-- The requests an event hands to threads, in their order. When a send fails the loop ends;
it failed because no thread was left, so what was sent before it is with none either.
-/
def handed (self : WorkerProcess) (io : WorkerEventIo) : List (Nat × Token × HttpRequest) :=
  match self.loop.phase.nextEvent? with
  | some (_, .queuedRequests) =>
      match self.loop.worker.pythonThreads.sendQueuedRequests self.loop.pool io.alive with
      | .ok (_, pool, .ok ()) =>
          ((pool.outstanding.drop self.loop.pool.outstanding.length).map Prod.fst).zip
            self.loop.worker.pythonThreads.queuedReqs
      | .ok (_, _, .error _) | .error _ => []
  | _ => []

/-- The threads that die while requests are sent: some send does not find them any more. -/
def dying (self : WorkerProcess) (io : WorkerEventIo) : List Nat :=
  match self.loop.phase.nextEvent? with
  | some (_, .queuedRequests) =>
      self.living.filter fun n => io.alive.any fun found => n ∉ found
  | _ => []

/-- The key of the body a thread is sending. -/
def streams? (self : WorkerProcess) (n : Nat) : Option Token :=
  match self.threads[n]? with
  | some { phase := .streaming job _, .. } => some job.key
  | _ => none

/-- A thread ends while the loop goes on, and with it the body it was sending. -/
def die (self : WorkerProcess) (n : Nat) : WorkerProcess :=
  { self with
    loop := { self.loop with pool := self.loop.pool.threadDies n }
    threads := self.threads.modify n .ends
    bodies :=
      match self.streams? n with
      | some key =>
          Function.update self.bodies key { self.bodies key with connected := false }
      | none => self.bodies
    cut := self.cut ++ (self.streams? n).toList }

/-- What an event of the loop does around it, where no thread dies. -/
def eventDone (self : WorkerProcess) (io : WorkerEventIo) (loop : WorkerLoop) : WorkerProcess :=
  { self with
    loop
    threads :=
      (self.handed io).foldl
        (fun threads (n, request) => threads.modify n fun thread => thread.hand request)
        self.threads
    bodies := self.taken
    read :=
      self.read
      ++ (loop.phase.workerResults.drop self.loop.phase.workerResults.length).filterMap
        readDone?
    writes := self.writes ++ (self.write? io).toList }

/-- What an event of the loop does around it. -/
def around (self : WorkerProcess) (io : WorkerEventIo) (loop : WorkerLoop) : WorkerProcess :=
  (self.dying io).foldl die (self.eventDone io loop)

-----------------------------------------------------------------------------------------
-- The threads
-----------------------------------------------------------------------------------------

/-- What an act of a thread in some phase sends, while the worker's ends are there: the two
messages of a request, and the chunks of its body.
-/
def sends (self : WorkerProcess) (n : Nat) (phase : ThreadPhase) (act : ThreadAct)
    : WorkerProcess :=
  match act, phase with
  | .sendCodeStart now, .starting key _ =>
      if self.loop.phase.running then
        { self with
          loop :=
            { self.loop with
              pool :=
                { self.loop.pool with
                  codeStarts := self.loop.pool.codeStarts ++ [(key, now)] } } }
      else
        self
  | .sendResponse, .responding job resp _ =>
      if self.loop.phase.running then
        { self with
          loop :=
            { self.loop with
              pool :=
                { self.loop.pool with
                  outstanding := self.loop.pool.outstanding.erase (n, job.key)
                  responses := self.loop.pool.responses ++ [(job.key, resp)] } }
          bodies := Function.update self.bodies job.key ⟨[], true⟩
          yielded := Function.update self.yielded job.key []
          answered := self.answered ++ [job] }
      else
        self
  | .stream, .streaming job sender =>
      { self with
        bodies :=
          Function.update self.bodies job.key
            (Delivery.received sender (self.bodies job.key))
        yielded :=
          Function.update self.yielded job.key
            (self.yielded job.key ++ sender.turn.1.toList) }
  | .panic, _ => self.die n
  | _, _ => self

/-- A thread goes on. -/
def threadStep (parser : StatusParser) (cfg : Config) (self : WorkerProcess) (n : Nat)
    (act : ThreadAct)
    : Option WorkerProcess :=
  match self.threads[n]? with
  | none => none
  | some thread =>
      (thread.step parser cfg cfg.server self.loop.phase.running act).map
        fun (after, lines) =>
          { self.sends n thread.phase act with
            threads := self.threads.set n after
            lines :=
              self.lines
              ++ thread.phase.inHand?.toList.flatMap fun request =>
                lines.map fun line => (request, line) }

-----------------------------------------------------------------------------------------
-- The process
-----------------------------------------------------------------------------------------

/-- One step of the process. -/
def step (parser : StatusParser) (cfg : Config) (crates : Crates) (bincode : Bincode)
    (self : WorkerProcess)
    : ProcessInput → Option WorkerProcess
  | .loop (.event io) =>
      (self.loop.step cfg crates bincode (.event (self.withBody io))).map (self.around io)
  | .loop input =>
      if input.ofThread then
        none
      else
        (self.loop.step cfg crates bincode input).map fun loop => { self with loop }
  | .thread n act => self.threadStep parser cfg n act

/-- What the calls find is so: a send finds threads that have not ended, and fewer as they
end; a channel is closed only once all threads have.
-/
def Finds (self : WorkerProcess) : ProcessInput → Prop
  | .loop (.event io) =>
      match self.loop.phase.nextEvent? with
      | some (_, .queuedRequests) =>
          io.alive.length = self.loop.worker.pythonThreads.queuedReqs.length
          ∧ (∀ found ∈ io.alive, ∀ n ∈ found, n ∈ self.living)
          ∧ io.alive.Pairwise fun earlier later => ∀ n ∈ later, n ∈ earlier
      | some (_, .pollPythonResponses) =>
          io.observed.codeStartsEnd = .disconnected
              ∨ io.observed.responsesEnd = .disconnected →
            self.living = []
      | _ => True
  | _ => True

instance (self : WorkerProcess) (input : ProcessInput) : Decidable (self.Finds input) :=
  match input with
  | .loop (.event io) =>
      match same : self.loop.phase.nextEvent? with
      | some (_, .queuedRequests) =>
          decidable_of_iff
            (io.alive.length = self.loop.worker.pythonThreads.queuedReqs.length
              ∧ (∀ found ∈ io.alive, ∀ n ∈ found, n ∈ self.living)
              ∧ io.alive.Pairwise fun earlier later => ∀ n ∈ later, n ∈ earlier)
            (by simp only [Finds, same])
      | some (_, .pollPythonResponses) =>
          decidable_of_iff
            (io.observed.codeStartsEnd = .disconnected
                ∨ io.observed.responsesEnd = .disconnected →
              self.living = [])
            (by simp only [Finds, same])
      | some (_, .ctrlC) | some (_, .unixStreamRead) | some (_, .unixStreamWrite)
      | some (_, .newStreamFd _) | some (_, .serverStreamRead) | some (_, .serverStreamWrite)
      | some (_, .requestReadTimeout) | some (_, .casketResponseWrite)
      | some (_, .pythonCodeTimeout) | none =>
          isTrue (by simp only [Finds, same])
  | .loop .top | .loop (.tick ..) | .loop (.action ..) | .loop (.timeout _)
  | .loop (.reregister _) | .loop .advance | .loop (.socket _) | .loop (.codeStart ..)
  | .loop (.respond ..) | .loop (.threadDies _) | .thread .. =>
      isTrue trivial

end WorkerProcess
end Casket
