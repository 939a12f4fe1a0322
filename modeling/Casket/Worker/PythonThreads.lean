import Casket.WorkQ
import Casket.Worker.Actions
import Mathlib.Data.Finset.Basic

/-! `pythonthreads`: requests wait to be sent to the python threads, and responses and start
messages come back on two channels. The threads themselves are the other side.
-/

namespace Casket

-----------------------------------------------------------------------------------------
-- The other side
-----------------------------------------------------------------------------------------

/-- The python threads as the worker can tell: which are alive, the requests they were handed
and have not answered, and what waits in the two channels.
-/
structure PythonPool where
  alive : List Nat
  outstanding : List (Nat × Token)
  codeStarts : List (Token × SystemTime)
  responses : List (Token × HttpResponse)

namespace PythonPool

def new (numThreads : Nat) : PythonPool where
  alive := List.range numThreads
  outstanding := []
  codeStarts := []
  responses := []

/-- A live thread starts with a request it was handed. -/
def codeStart (self : PythonPool) (thread : Nat) (tk : Token) (time : SystemTime)
    : Option PythonPool :=
  if thread ∈ self.alive ∧ (thread, tk) ∈ self.outstanding then
    some { self with codeStarts := self.codeStarts ++ [(tk, time)] }
  else
    none

/-- A live thread answers a request it was handed, once. -/
def respond (self : PythonPool) (thread : Nat) (tk : Token) (resp : HttpResponse)
    : Option PythonPool :=
  if thread ∈ self.alive ∧ (thread, tk) ∈ self.outstanding then
    some
      { self with
        outstanding := self.outstanding.erase (thread, tk)
        responses := self.responses ++ [(tk, resp)] }
  else
    none

/-- A thread dies; what it was handed stays unanswered. -/
def threadDies (self : PythonPool) (thread : Nat) : PythonPool :=
  { self with alive := self.alive.erase thread }

end PythonPool

-----------------------------------------------------------------------------------------
-- The worker's side
-----------------------------------------------------------------------------------------

/-- `PythonThreads`, without the receiving ends, whose channels are in the pool. -/
structure PythonThreads where
  queuedReqs : List (Token × HttpRequest)
  numPendingReqs : Nat
  reqSend : WorkQ
  timedOutReqs : Finset Token

namespace PythonThreads

/-- `spawn` makes one receiver for each thread. Every thread can be spawned. -/
def new (cfg : Config) : PythonThreads where
  queuedReqs := []
  numPendingReqs := 0
  reqSend := (List.range cfg.numThreads).foldl WorkQ.newRecv .new
  timedOutReqs := ∅

def queueHttpReq (self : PythonThreads) (tk : Token) (httpReq : HttpRequest)
    : PythonThreads :=
  { self with queuedReqs := self.queuedReqs ++ [(tk, httpReq)] }

def hasQueuedReqs (self : PythonThreads) : Bool := !self.queuedReqs.isEmpty

/-- The loop of `send_queued_requests` over the drained queue, given the threads alive at
each send.
-/
def sendLoop
    : PythonThreads → PythonPool → List (Token × HttpRequest) → List (List Nat)
      → Except Panic (PythonThreads × PythonPool × RuntimeResult)
  | self, pool, [], _ => .ok (self, pool, .ok ())
  | self, pool, (tk, _) :: rest, alive =>
      match self.reqSend.send fun thread => thread ∈ alive.headD [] with
      | .error panic => .error panic
      | .ok (none, reqSend) => .ok ({ self with reqSend }, pool, .error .pythonThreadsDied)
      | .ok (some thread, reqSend) =>
          sendLoop
            { self with reqSend, numPendingReqs := self.numPendingReqs + 1 }
            { pool with outstanding := pool.outstanding ++ [(thread, tk)] }
            rest alive.tail

def sendQueuedRequests (self : PythonThreads) (pool : PythonPool) (alive : List (List Nat))
    : Except Panic (PythonThreads × PythonPool × RuntimeResult) :=
  sendLoop { self with queuedReqs := [] } pool self.queuedReqs alive

def timeoutRequest (self : PythonThreads) (tk : Token) : PythonThreads :=
  { self with timedOutReqs := insert tk self.timedOutReqs }

/-- The loop over the responses: one whose request timed out is dropped, any other becomes
an action.
-/
def takeLoop
    : PythonThreads → List ActionResult → List (Token × HttpResponse)
      → Except Panic (PythonThreads × List ActionResult)
  | self, results, [] => .ok (self, results)
  | self, results, (tk, resp) :: rest =>
      if self.numPendingReqs = 0 then
        .error .numPendingReqsUnderflow
      else
        let numPendingReqs := self.numPendingReqs - 1
        if tk ∈ self.timedOutReqs then
          takeLoop
            { self with numPendingReqs, timedOutReqs := self.timedOutReqs.erase tk } results
            rest
        else
          takeLoop { self with numPendingReqs } (results ++ [.ok (.serverNewResponse tk resp)])
            rest

/-- What `take_responses` finds in the channels: the messages each loop gets before `Empty`
or `Disconnected` ends it.
-/
structure Observed where
  codeStarts : Nat
  codeStartsEnd : TryRecvError
  responses : Nat
  responsesEnd : TryRecvError
  deriving DecidableEq, Repr

/-- `take_responses`. The responses are not looked at when the first channel is closed. -/
def takeResponses (self : PythonThreads) (pool : PythonPool) (results : List ActionResult)
    (observed : Observed)
    : Except Panic (PythonThreads × PythonPool × List ActionResult × RuntimeResult) :=
  let started := pool.codeStarts.take observed.codeStarts
  let pool := { pool with codeStarts := pool.codeStarts.drop observed.codeStarts }
  let results :=
    results ++ started.map fun (tk, st) => .ok (.serverPythonCodeTimeoutNew tk st)
  match observed.codeStartsEnd with
  | .disconnected => .ok (self, pool, results, .error .pythonThreadsDied)
  | .empty =>
      match self.takeLoop results (pool.responses.take observed.responses) with
      | .error panic => .error panic
      | .ok (self, results) =>
          let pool := { pool with responses := pool.responses.drop observed.responses }
          match observed.responsesEnd with
          | .empty => .ok (self, pool, results, .ok ())
          | .disconnected => .ok (self, pool, results, .error .pythonThreadsDied)

end PythonThreads
end Casket
