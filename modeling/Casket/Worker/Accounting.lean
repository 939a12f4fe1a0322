import Casket.Lib.Ledger
import Casket.Worker.Custody

/-! The worker's accounts of its requests: the loop, its queue, the python threads and their
channels are a ledger of requests, and every step of the loop is one of the ledger.
-/

namespace Casket

open Lib

-----------------------------------------------------------------------------------------
-- The ledger of a state
-----------------------------------------------------------------------------------------

namespace WorkerEffect

/-- The tokens an effect hands to a thread, takes back, delivers or gives up. -/
@[simp]
def sends : WorkerEffect → Multiset Token
  | .sent tk => {tk}
  | _ => 0

@[simp]
def takes : WorkerEffect → Multiset Token
  | .taken tk => {tk}
  | _ => 0

@[simp]
def delivers : WorkerEffect → Multiset Token
  | .delivered tk => {tk}
  | _ => 0

@[simp]
def givesUp : WorkerEffect → Multiset Token
  | .timedOut tk => {tk}
  | _ => 0

/-- No request moves. -/
def idle : WorkerEffect → Bool
  | .received _ _ | .sent _ | .taken _ | .delivered _ | .timedOut _ => false
  | _ => true

/-- The sums of a trace that are kept in the ledger. -/
structure Counts where
  came : Multiset Token
  sent : Multiset Token
  taken : Multiset Token
  delivered : Multiset Token
  givenUp : Multiset Token

def counts (trace : List WorkerEffect) : Counts where
  came := (total came trace).map Prod.fst
  sent := total sends trace
  taken := total takes trace
  delivered := total delivers trace
  givenUp := total givesUp trace

/-- More effects add their sums. -/
theorem counts_append (trace effects : List WorkerEffect)
    : counts (trace ++ effects)
      = { came := (counts trace).came + (counts effects).came
          sent := (counts trace).sent + (counts effects).sent
          taken := (counts trace).taken + (counts effects).taken
          delivered := (counts trace).delivered + (counts effects).delivered
          givenUp := (counts trace).givenUp + (counts effects).givenUp } := by
  simp only [counts, total_append, Multiset.map_add]

/-- Idle effects leave the sums alone. -/
theorem counts_idle {trace effects : List WorkerEffect}
    (idle : ∀ effect ∈ effects, effect.idle = true)
    : counts (trace ++ effects) = counts trace := by
  have zeroes {effect : WorkerEffect} (is : effect.idle = true)
      : effect.came = 0 ∧ effect.sends = 0 ∧ effect.takes = 0 ∧ effect.delivers = 0
        ∧ effect.givesUp = 0 := by
    cases effect with
    | received | sent | taken | delivered | timedOut => cases is
    | _ => exact ⟨rfl, rfl, rfl, rfl, rfl⟩
  have none {γ : Type} (share : WorkerEffect → Multiset γ)
      (zero : ∀ {effect : WorkerEffect}, effect.idle = true → share effect = 0)
      : total share effects = 0 :=
    total_eq_zero fun effect member => zero (idle effect member)
  have nothing : counts effects = ⟨0, 0, 0, 0, 0⟩ := by
    rw [counts, none _ fun is => (zeroes is).1, none _ fun is => (zeroes is).2.1,
      none _ fun is => (zeroes is).2.2.1, none _ fun is => (zeroes is).2.2.2.1,
      none _ fun is => (zeroes is).2.2.2.2, Multiset.map_zero]
  rw [counts_append, nothing]
  simp only [add_zero]

/-- The sums of streams that arrive. -/
theorem counts_received (streams : List (Token × RawFd))
    : counts (streams.map WorkerLoop.streamReceived)
      = ⟨(streams.map Prod.fst : List Token), 0, 0, 0, 0⟩ := by
  rw [counts, total_map came WorkerLoop.streamReceived WorkerLoop.owned (fun _ => rfl),
    total_map_none sends _ (fun _ => rfl), total_map_none takes _ (fun _ => rfl),
    total_map_none delivers _ (fun _ => rfl), total_map_none givesUp _ (fun _ => rfl),
    Multiset.map_coe, List.map_map]
  rfl

/-- The sums of requests that are sent. -/
theorem counts_sent (tks : List Token)
    : counts (tks.map WorkerEffect.sent) = ⟨0, (tks : Multiset Token), 0, 0, 0⟩ := by
  rw [counts, total_map sends WorkerEffect.sent id (fun _ => rfl), List.map_id,
    total_map_none came _ (fun _ => rfl), total_map_none takes _ (fun _ => rfl),
    total_map_none delivers _ (fun _ => rfl), total_map_none givesUp _ (fun _ => rfl)]
  rfl

/-- The sums of responses that are taken and delivered. -/
theorem counts_taken (taken delivered : List Token)
    : counts (taken.map WorkerEffect.taken ++ delivered.map WorkerEffect.delivered)
      = ⟨0, 0, (taken : Multiset Token), (delivered : Multiset Token), 0⟩ := by
  have first
      : counts (taken.map WorkerEffect.taken) = ⟨0, 0, (taken : Multiset Token), 0, 0⟩ := by
    rw [counts, total_map takes WorkerEffect.taken id (fun _ => rfl), List.map_id,
      total_map_none came _ (fun _ => rfl), total_map_none sends _ (fun _ => rfl),
      total_map_none delivers _ (fun _ => rfl), total_map_none givesUp _ (fun _ => rfl)]
    rfl
  have second
      : counts (delivered.map WorkerEffect.delivered)
        = ⟨0, 0, 0, (delivered : Multiset Token), 0⟩ := by
    rw [counts, total_map delivers WorkerEffect.delivered id (fun _ => rfl), List.map_id,
      total_map_none came _ (fun _ => rfl), total_map_none sends _ (fun _ => rfl),
      total_map_none takes _ (fun _ => rfl), total_map_none givesUp _ (fun _ => rfl)]
    rfl
  rw [counts_append, first, second]
  simp only [add_zero, zero_add]

end WorkerEffect

/-- The token of a request that is not queued yet. -/
def ActionResult.early? : ActionResult → Option Token
  | .ok (.newServerRequest tk _) => some tk
  | .ok (.serverContinueRead tk _ _) => some tk
  | .ok (.serverReadDone tk _ _) => some tk
  | _ => none

/-- The phases in which timeouts are handled. -/
def WorkerPhase.expires : WorkerPhase → Bool
  | .timeouts _ _ => true
  | .timeoutActions _ => true
  | _ => false

namespace WorkerLoop

open WorkerEffect

/-- The requests that arrived and are not complete. -/
def earlyTokens (self : WorkerLoop) : Multiset Token :=
  ((self.phase.eventsBuf.filterMap arrival?).map Prod.fst : List Token)
  + (self.phase.workerResults.filterMap ActionResult.early? : List Token)
  + (self.worker.serverReadingStreams.keys : Multiset Token)

/-- The responses among the results. -/
def answering (phase : WorkerPhase) : Multiset Token :=
  (phase.workerResults.filterMap newResponse? : List Token)

/-- The requests with the threads, until their responses are taken from the channel. -/
def outstanding (pool : PythonPool) : Multiset Token :=
  (pool.outstanding.map Prod.snd : List Token) + (pool.responses.map Prod.fst : List Token)

def ledger (self : WorkerLoop) : Ledger Token where
  came := (counts self.trace).came
  early := self.earlyTokens
  queued := (self.worker.pythonThreads.queuedReqs.map Prod.fst : List Token)
  sent := (counts self.trace).sent
  outstanding := outstanding self.pool
  counter := self.worker.pythonThreads.numPendingReqs
  taken := (counts self.trace).taken
  delivered := (counts self.trace).delivered
  answering := answering self.phase
  waiting := self.worker.serverPendingStreams.keys.toFinset
  late := self.worker.pythonThreads.timedOutReqs
  givenUp := (counts self.trace).givenUp

theorem ledger_new (cfg : Config) : (WorkerLoop.new cfg).ledger = .empty := rfl

variable {cfg : Config} {crates : Crates} {bincode : Bincode} {self after : WorkerLoop}
  {input : WorkerInput}

/-- A step that moves no request may still let early ones go. -/
theorem ledger_forget {effects : List WorkerEffect}
    (trace : after.trace = self.trace ++ effects)
    (idle : ∀ effect ∈ effects, effect.idle = true)
    (threads : after.worker.pythonThreads = self.worker.pythonThreads)
    (pool : outstanding after.pool = outstanding self.pool)
    (waiting : after.worker.serverPendingStreams = self.worker.serverPendingStreams)
    (handled : answering after.phase = answering self.phase)
    (early : after.earlyTokens ≤ self.earlyTokens)
    : self.ledger.Step after.ledger := by
  have same : after.ledger = { self.ledger with early := after.earlyTokens } := by
    rw [ledger, ledger, trace, counts_idle idle, threads, pool, waiting, handled]
  exact same ▸ .forget early

-----------------------------------------------------------------------------------------
-- One result, one event, one timeout
-----------------------------------------------------------------------------------------

/-- A step has taken a result or an event in hand, with the tokens it stood for. -/
structure Pops (before now : WorkerLoop) (early handled : Option Token) : Prop where
  trace : before.trace = now.trace
  worker : before.worker = now.worker
  pool : before.pool = now.pool
  early : before.earlyTokens = (early.toList : Multiset Token) + now.earlyTokens
  handled : answering before.phase = (handled.toList : Multiset Token) + answering now.phase

/-- What was taken in hand is gone for the ledger when nothing moves. -/
theorem Pops.forget {before : WorkerLoop} {early : Option Token} {effects : List WorkerEffect}
    (pops : before.Pops self early none) (trace : after.trace = self.trace ++ effects)
    (idle : ∀ effect ∈ effects, effect.idle = true)
    (threads : after.worker.pythonThreads = self.worker.pythonThreads)
    (pool : outstanding after.pool = outstanding self.pool)
    (waiting : after.worker.serverPendingStreams = self.worker.serverPendingStreams)
    (handled : answering after.phase = answering self.phase)
    (fewer : after.earlyTokens ≤ (early.toList : Multiset Token) + self.earlyTokens)
    : before.ledger.Step after.ledger := by
  refine ledger_forget (pops.trace ▸ trace) idle ?_ ?_ ?_ ?_ (pops.early ▸ fewer)
  · rw [threads, pops.worker]
  · rw [pool, pops.pool]
  · rw [waiting, pops.worker]
  · rw [handled, pops.handled]
    exact (zero_add _).symm

theorem idle_replacing (tk : Token) (replaced : Option TcpStream)
    : ∀ effect ∈ replacing tk replaced, effect.idle = true := by
  cases replaced with
  | none => nofun
  | some tcpStream =>
      intro effect member
      obtain rfl := List.mem_singleton.mp member
      rfl

theorem idle_ends {res : ActionResult} {result : Except IoError Unit}
    {lines : List WorkerEffect} {ending : Ending} {response : Response} {gone : WorkerEffect}
    (ends : res.Ends result lines ending gone)
    : ∀ effect ∈ lines ++ [.answered ending response, gone], effect.idle = true := by
  intro effect member
  cases ends <;> (simp at member; rcases member with rfl | rfl | rfl <;> rfl)

/-- A reading stream that is put back is early as its action was. -/
theorem early_insertReading (self : WorkerLoop) (tk : Token) (tcpStream : TcpStream)
    (reader : Reader)
    : (self.insertReading tk tcpStream reader).earlyTokens ≤ {tk} + self.earlyTokens := by
  have keys := keys_insert_le self.worker.serverReadingStreams tk (tcpStream, reader)
  rw [earlyTokens, earlyTokens, add_left_comm]
  exact add_le_add_right keys _

theorem toFinset_insert {α : Type} (map : TokenMap α) (tk : Token) (value : α)
    : (map.insert tk value).keys.toFinset = insert tk map.keys.toFinset := by
  ext other
  rw [Finset.mem_insert, List.mem_toFinset, List.mem_toFinset, mem_keys_insert]

theorem toFinset_erase {α : Type} (map : TokenMap α) (tk : Token)
    : (map.erase tk).keys.toFinset = map.keys.toFinset.erase tk := by
  ext other
  rw [Finset.mem_erase, List.mem_toFinset, List.mem_toFinset, mem_keys_erase]

/-- A stream that stops waiting for its response, which is handled. -/
theorem Pops.answer {before : WorkerLoop} {tk : Token} {tcpStream : TcpStream}
    {effects : List WorkerEffect} (pops : before.Pops self none (some tk))
    (waits : self.worker.serverPendingStreams.lookup tk = some tcpStream)
    (trace : after.trace = self.trace ++ effects)
    (idle : ∀ effect ∈ effects, effect.idle = true)
    (threads : after.worker.pythonThreads = self.worker.pythonThreads)
    (pool : after.pool = self.pool)
    (waiting
      : after.worker.serverPendingStreams = self.worker.serverPendingStreams.erase tk)
    (handled : answering after.phase = answering self.phase)
    (early : after.earlyTokens = self.earlyTokens)
    : before.ledger.Step after.ledger := by
  have same
      : after.ledger
        = { before.ledger with
            answering := answering self.phase
            waiting := before.ledger.waiting.erase tk } := by
    have were := pops.early
    rw [Option.toList_none, Multiset.coe_nil, zero_add] at were
    rw [ledger, ledger, trace, counts_idle idle, threads, pool, waiting, handled, early, were,
      pops.trace, pops.worker, pops.pool, toFinset_erase]
  rw [same]
  refine .answer ?_ pops.handled
  rw [ledger, pops.worker]
  exact List.mem_toFinset.mpr (mem_keys_of_lookup waits)

/-- A complete request is queued, and its stream waits. -/
theorem Pops.queue {before : WorkerLoop} {tk : Token} {httpReq : HttpRequest}
    {tcpStream : TcpStream} {poll : Poller} (pops : before.Pops self (some tk) none)
    : before.ledger.Step
        ({ self with
            worker :=
              { self.worker with
                poll
                pythonThreads :=
                  self.worker.pythonThreads.queueHttpReq tk httpReq } }.insertPending tk
          tcpStream).ledger := by
  generalize is
    : { self with
        worker :=
          { self.worker with
            poll
            pythonThreads :=
              self.worker.pythonThreads.queueHttpReq tk httpReq } }.insertPending tk tcpStream
      = after
  have same
      : after.ledger
        = { before.ledger with
            early := self.earlyTokens
            queued := {tk} + before.ledger.queued
            waiting := insert tk before.ledger.waiting } := by
    have handled := pops.handled
    rw [Option.toList_none, Multiset.coe_nil, zero_add] at handled
    subst is
    rw [ledger, ledger, pops.trace, pops.worker, pops.pool, handled]
    dsimp only [insertPending, note]
    rw [counts_idle (idle_replacing _ _), toFinset_insert]
    congr 1
    rw [PythonThreads.queueHttpReq, List.map_append, ← Multiset.coe_add, add_comm]
    rfl
  rw [same]
  refine .queue ?_
  rw [ledger, pops.early]
  exact le_rfl

/-- A handled result is a step of the ledger. -/
theorem Settles.ledger {res : ActionResult} {result : Except IoError Unit}
    {before : WorkerLoop} (settles : self.Settles bincode res result after)
    (pops : before.Pops self res.early? (newResponse? res))
    : before.ledger.Step after.ledger := by
  cases settles with
  | answered held ends =>
      have none : newResponse? res = none := by
        cases res with
        | error => rfl
        | ok act => cases act <;> first | rfl | cases held
      rw [none] at pops
      exact pops.forget rfl (idle_ends ends) rfl rfl rfl rfl (Multiset.le_add_left _ _)
  | lost waits =>
      refine pops.answer waits rfl ?_ rfl rfl rfl rfl rfl
      intro effect member
      rcases List.mem_pair.mp member with rfl | rfl <;> rfl
  | accepted =>
      exact pops.forget rfl (idle_replacing _ _) rfl rfl rfl rfl (early_insertReading _ _ _ _)
  | reading =>
      exact pops.forget rfl (idle_replacing _ _) rfl rfl rfl rfl (early_insertReading _ _ _ _)
  | queued => exact pops.queue
  | responding waits => exact pops.answer waits rfl (idle_replacing _ _) rfl rfl rfl rfl rfl
  | writing =>
      exact pops.forget rfl (idle_replacing _ _) rfl rfl rfl rfl (Multiset.le_add_left _ _)
  | casket is =>
      rcases is with rfl | rfl
      · exact pops.forget rfl (idle_replacing _ _) rfl rfl rfl rfl (Multiset.le_add_left _ _)
      · exact pops.forget rfl (idle_replacing _ _) rfl rfl rfl rfl (Multiset.le_add_left _ _)
  | started =>
      exact pops.forget (List.append_nil _).symm nofun rfl rfl rfl rfl
        (Multiset.le_add_left _ _)

/-- Results that are pushed come after those that were there. -/
theorem filterMap_pushResults {γ : Type} (view : ActionResult → Option γ)
    {phase : WorkerPhase} (collects : phase.collects = true) (more : List ActionResult)
    : ((phase.pushResults more).workerResults.filterMap view : Multiset γ)
      = (phase.workerResults.filterMap view : List γ) + (more.filterMap view : List γ) := by
  rw [WorkerPhase.workerResults_pushResults collects, List.filterMap_append, Multiset.coe_add]

/-- A step that pushes results with no response among them. -/
theorem Pops.push {before : WorkerLoop} {early : Option Token} {effects : List WorkerEffect}
    {more : List ActionResult} (pops : before.Pops self early none)
    (collects : self.phase.collects = true)
    (phase : after.phase = self.phase.pushResults more)
    (trace : after.trace = self.trace ++ effects)
    (idle : ∀ effect ∈ effects, effect.idle = true)
    (threads : after.worker.pythonThreads = self.worker.pythonThreads)
    (pool : after.pool = self.pool)
    (waiting : after.worker.serverPendingStreams = self.worker.serverPendingStreams)
    (silent : more.filterMap newResponse? = [])
    (fewer
      : (more.filterMap ActionResult.early? : Multiset Token)
          + after.worker.serverReadingStreams.keys
        ≤ (early.toList : Multiset Token) + self.worker.serverReadingStreams.keys)
    : before.ledger.Step after.ledger := by
  refine pops.forget trace idle threads (congrArg outstanding pool) waiting ?_ ?_
  · rw [answering, phase, filterMap_pushResults _ collects, silent, answering]
    exact add_zero _
  · rw [earlyTokens, phase, filterMap_pushResults _ collects, earlyTokens,
      WorkerPhase.eventsBuf_pushResults, ← add_assoc, add_assoc,
      add_left_comm (early.toList : Multiset Token)]
    exact add_le_add_right fewer _

/-- What a read leaves of an early request. -/
theorem ReadResult.early {tk : Token} {tcpStream : TcpStream} {res : ActionResult}
    (gives : ReadResult tk tcpStream res)
    : newResponse? res = none
      ∧ (([res].filterMap ActionResult.early? : List Token) : Multiset Token) ≤ {tk} := by
  cases gives with
  | «continue» | done => exact ⟨rfl, le_rfl⟩
  | streamEOF | failed => exact ⟨rfl, Multiset.zero_le _⟩

theorem WriteResult.quiet {tk : Token} {tcpStream : TcpStream} {res : ActionResult}
    (gives : WriteResult tk tcpStream res)
    : newResponse? res = none ∧ res.early? = none := by
  cases gives <;> exact ⟨rfl, rfl⟩

theorem CasketResult.quiet {tk : Token} {tcpStream : TcpStream} {code : UInt16}
    {res : ActionResult} (gives : CasketResult tk tcpStream code res)
    : newResponse? res = none ∧ res.early? = none := by
  cases gives <;> exact ⟨rfl, rfl⟩

theorem filterMap_singleton_none {γ : Type} {view : ActionResult → Option γ}
    {res : ActionResult} (none : view res = none)
    : [res].filterMap view = [] := by
  rw [List.filterMap_cons_none none, List.filterMap_nil]

/-- Sending hands the queue to the threads. -/
theorem Pops.send {before : WorkerLoop} {alive : List (List Nat)}
    {pythonThreads : PythonThreads} {pool : PythonPool} (pops : before.Pops self none none)
    (sent
      : self.worker.pythonThreads.sendQueuedRequests self.pool alive
        = .ok (pythonThreads, pool, .ok ()))
    : before.ledger.Step
        ({ self with worker := { self.worker with pythonThreads }, pool }.note
          (((pool.outstanding.drop self.pool.outstanding.length).map Prod.snd).map
            WorkerEffect.sent)).ledger := by
  obtain ⟨handed, rfl, tokens, count, queued, timedOut⟩ :=
    PythonThreads.sendQueuedRequests_spec sent
  rw [List.drop_left]
  generalize is
    : { self with
          worker := { self.worker with pythonThreads }
          pool :=
            { self.pool with outstanding := self.pool.outstanding ++ handed } }.note
        ((handed.map Prod.snd).map WorkerEffect.sent)
      = after
  have same
      : after.ledger
        = { before.ledger with
            queued := 0
            sent := before.ledger.sent + before.ledger.queued
            outstanding := before.ledger.outstanding + before.ledger.queued
            counter := before.ledger.counter + before.ledger.queued.card } := by
    have early := pops.early
    have handled := pops.handled
    rw [Option.toList_none, Multiset.coe_nil, zero_add] at early handled
    subst is
    rw [ledger, ledger, early, handled, pops.trace, pops.worker, pops.pool]
    dsimp only [note]
    rw [counts_append, counts_sent, tokens, count, queued, timedOut, outstanding, outstanding,
      List.map_append, tokens, ← Multiset.coe_add, Multiset.coe_card, List.length_map]
    congr 1
    · exact add_zero _
    · abel
    all_goals exact add_zero _
  exact same ▸ .send

/-- The responses among the results of a poll are those that were delivered. -/
theorem filterMap_newResponse (started : List (Token × SystemTime))
    (delivered : List (Token × HttpResponse))
    : (started.map PythonThreads.newTimeout
        ++ delivered.map PythonThreads.newResponse).filterMap newResponse?
      = delivered.map Prod.fst := by
  have none : (started.map PythonThreads.newTimeout).filterMap newResponse? = [] :=
    List.filterMap_eq_nil_iff.mpr (List.forall_mem_map.mpr fun _ _ => rfl)
  have all
      : (delivered.map PythonThreads.newResponse).filterMap newResponse?
        = delivered.map Prod.fst := by
    rw [List.filterMap_map, ← List.filterMap_eq_map]
    rfl
  rw [List.filterMap_append, none, all, List.nil_append]

/-- No request among them is early. -/
theorem filterMap_early (started : List (Token × SystemTime))
    (delivered : List (Token × HttpResponse))
    : (started.map PythonThreads.newTimeout
        ++ delivered.map PythonThreads.newResponse).filterMap ActionResult.early?
      = [] := by
  rw [List.filterMap_eq_nil_iff, List.forall_mem_append]
  exact ⟨List.forall_mem_map.mpr fun _ _ => rfl, List.forall_mem_map.mpr fun _ _ => rfl⟩

/-- Taking responses settles them. -/
theorem Pops.take {before : WorkerLoop} {observed : PythonThreads.Observed}
    {pythonThreads : PythonThreads} {pool : PythonPool} {results : List ActionResult}
    (pops : before.Pops self none none) (collects : self.phase.collects = true)
    (took
      : self.worker.pythonThreads.takeResponses self.pool [] observed
        = .ok (pythonThreads, pool, results, .ok ()))
    : before.ledger.Step
        (({ self with worker := { self.worker with pythonThreads }, pool }.pushResults
            results).note
          (((self.pool.responses.take observed.responses).map Prod.fst).map WorkerEffect.taken
            ++ (results.filterMap newResponse?).map WorkerEffect.delivered)).ledger := by
  obtain ⟨delivered, rfl, sub, moved, count, queued, rfl, live⟩ :=
    PythonThreads.takeResponses_spec took
  rw [filterMap_newResponse]
  generalize takenNow : self.pool.responses.take observed.responses = taken at *
  generalize is
    : ({ self with
            worker := { self.worker with pythonThreads }
            pool :=
              { self.pool with
                codeStarts := self.pool.codeStarts.drop observed.codeStarts
                responses := self.pool.responses.drop observed.responses } }.pushResults
          ((self.pool.codeStarts.take observed.codeStarts).map PythonThreads.newTimeout
            ++ delivered.map PythonThreads.newResponse)).note
        ((taken.map Prod.fst).map WorkerEffect.taken
          ++ (delivered.map Prod.fst).map WorkerEffect.delivered)
      = after
  have left
      : outstanding self.pool
        = (taken.map Prod.fst : List Token)
          + ((self.pool.outstanding.map Prod.snd : List Token)
            + ((self.pool.responses.drop observed.responses).map Prod.fst : List Token)) := by
    rw [outstanding, add_left_comm, Multiset.coe_add (taken.map Prod.fst), ← List.map_append,
      ← takenNow, List.take_append_drop]
  have same
      : after.ledger
        = { before.ledger with
            outstanding :=
              (self.pool.outstanding.map Prod.snd : List Token)
              + ((self.pool.responses.drop observed.responses).map Prod.fst : List Token)
            late := pythonThreads.timedOutReqs
            counter := pythonThreads.numPendingReqs
            taken := before.ledger.taken + (taken.map Prod.fst : List Token)
            delivered := before.ledger.delivered + (delivered.map Prod.fst : List Token)
            answering := before.ledger.answering + (delivered.map Prod.fst : List Token) } := by
    have early := pops.early
    have handled := pops.handled
    rw [Option.toList_none, Multiset.coe_nil, zero_add] at early handled
    subst is
    rw [ledger, ledger, early, handled, pops.trace, pops.worker, pops.pool, earlyTokens,
      answering]
    dsimp only [note, pushResults]
    rw [counts_append, counts_taken, queued, filterMap_pushResults _ collects,
      filterMap_pushResults _ collects, filterMap_newResponse, filterMap_early,
      WorkerPhase.eventsBuf_pushResults, Multiset.coe_nil]
    simp only [add_zero]
    rfl
  rw [same]
  have threads : before.ledger.late = self.worker.pythonThreads.timedOutReqs := by
    rw [ledger, pops.worker]
  refine .take ?_ ?_ (threads ▸ moved) ?_ ?_
  · rw [ledger, pops.pool]
    exact left
  · exact Multiset.coe_le.mpr (sub.map Prod.fst).subperm
  · rw [threads]
    exact live
  · rw [ledger, pops.worker, count, Multiset.coe_card, List.length_map]

/-- An event is a step of the ledger. -/
theorem Delivers.ledger {tk : Token} {ev : Event} {before : WorkerLoop}
    (delivers : self.Delivers cfg bincode tk ev after) (collects : self.phase.collects = true)
    (pops : before.Pops self ((arrival? (tk, ev)).map Prod.fst) none)
    : before.ledger.Step after.ledger := by
  have one {effect : WorkerEffect} (idle : effect.idle = true)
      : ∀ other ∈ [effect], other.idle = true :=
    fun other member => List.mem_singleton.mp member ▸ idle
  cases delivers with
  | ctrlC =>
      exact pops.forget (List.append_nil _).symm nofun rfl rfl rfl rfl (Multiset.le_add_left _ _)
  | unixStreamRead => exact pops.forget rfl (one rfl) rfl rfl rfl rfl (Multiset.le_add_left _ _)
  | unixStreamWrite => exact pops.forget rfl (one rfl) rfl rfl rfl rfl (Multiset.le_add_left _ _)
  | refused =>
      refine pops.push collects rfl (List.append_nil _).symm nofun rfl rfl rfl rfl ?_
      exact add_le_add_left (Multiset.zero_le _) _
  | newStreamFd =>
      exact pops.push collects rfl (List.append_nil _).symm nofun rfl rfl rfl rfl le_rfl
  | serverStreamRead found gives =>
      obtain ⟨silent, early⟩ := gives.early
      refine pops.push collects rfl rfl (one rfl) rfl rfl rfl (filterMap_singleton_none silent) ?_
      rw [keys_of_lookup found]
      exact (add_le_add_left early _).trans (Multiset.le_add_left _ _)
  | queuedRequests sent => exact pops.send sent
  | pollPythonResponses took => exact pops.take collects took
  | serverStreamWrite _ gives =>
      obtain ⟨silent, early⟩ := gives.quiet
      refine pops.push collects rfl rfl (one rfl) rfl rfl rfl (filterMap_singleton_none silent) ?_
      rw [filterMap_singleton_none early]
      exact le_rfl
  | requestReadTimeout =>
      refine pops.forget (List.append_nil _).symm nofun rfl rfl rfl ?_ ?_
      · rw [answering, pushTimeout, WorkerPhase.workerResults_pushTimeout, answering]
      · rw [earlyTokens, pushTimeout, WorkerPhase.workerResults_pushTimeout,
          WorkerPhase.eventsBuf_pushTimeout]
        exact Multiset.le_add_left _ _
  | casketResponseWrite _ gives =>
      obtain ⟨silent, early⟩ := gives.quiet
      refine pops.push collects rfl rfl (one rfl) rfl rfl rfl (filterMap_singleton_none silent) ?_
      rw [filterMap_singleton_none early]
      exact le_rfl
  | pythonCodeTimeout =>
      refine pops.forget (List.append_nil _).symm nofun rfl rfl rfl ?_ ?_
      · rw [answering, pushTimeout, WorkerPhase.workerResults_pushTimeout, answering]
      · rw [earlyTokens, pushTimeout, WorkerPhase.workerResults_pushTimeout,
          WorkerPhase.eventsBuf_pushTimeout]
        exact Multiset.le_add_left _ _

/-- A stream that waits for a response is given up. -/
theorem Pops.giveUp {before : WorkerLoop} {tk : Token} {tcpStream : TcpStream}
    (pops : before.Pops self none none) (collects : self.phase.collects = true)
    (waits : self.worker.serverPendingStreams.lookup tk = some tcpStream)
    (sent : tk ∈ before.ledger.sent) (settled : answering before.phase = 0)
    : before.ledger.Step
        (({ self with
            worker :=
              { self.worker with
                serverPendingStreams := self.worker.serverPendingStreams.erase tk
                pythonThreads := self.worker.pythonThreads.timeoutRequest tk } }.pushResults
            [.ok (new504GatewayTimeout tk tcpStream)]).note
          [.timedOut tk]).ledger := by
  generalize is
    : ({ self with
            worker :=
              { self.worker with
                serverPendingStreams := self.worker.serverPendingStreams.erase tk
                pythonThreads := self.worker.pythonThreads.timeoutRequest tk } }.pushResults
          [.ok (new504GatewayTimeout tk tcpStream)]).note
        [.timedOut tk]
      = after
  have same
      : after.ledger
        = { before.ledger with
            waiting := before.ledger.waiting.erase tk
            late := insert tk before.ledger.late
            givenUp := before.ledger.givenUp + {tk} } := by
    have early := pops.early
    have handled := pops.handled
    rw [Option.toList_none, Multiset.coe_nil, zero_add] at early handled
    subst is
    rw [ledger, ledger, early, handled, pops.trace, pops.worker, pops.pool, earlyTokens,
      answering]
    dsimp only [note, pushResults]
    rw [counts_append, filterMap_pushResults _ collects, filterMap_pushResults _ collects,
      WorkerPhase.eventsBuf_pushResults, toFinset_erase]
    have nothing : counts [.timedOut tk] = ⟨0, 0, 0, 0, {tk}⟩ := rfl
    rw [nothing]
    have quiet {γ : Type} (view : ActionResult → Option γ)
        (none : view (.ok (new504GatewayTimeout tk tcpStream)) = none)
        : ([.ok (new504GatewayTimeout tk tcpStream)].filterMap view : Multiset γ) = 0 := by
      rw [filterMap_singleton_none none, Multiset.coe_nil]
    rw [quiet ActionResult.early? rfl, quiet newResponse? rfl]
    simp only [add_zero]
    rfl
  rw [same]
  refine .giveUp ?_ sent settled
  rw [ledger, pops.worker]
  exact List.mem_toFinset.mpr (mem_keys_of_lookup waits)

/-- A timeout is a step of the ledger, if code timers are for requests that were sent. -/
theorem Expires.ledger {tk : Token} {timeout : Timeout} {before : WorkerLoop}
    (expires : self.Expires tk timeout after) (collects : self.phase.collects = true)
    (pops : before.Pops self none none)
    (sent : timeout = .pythonCode → tk ∈ before.ledger.sent)
    (settled : answering before.phase = 0)
    : before.ledger.Step after.ledger := by
  cases expires with
  | stale =>
      exact pops.forget (List.append_nil _).symm nofun rfl rfl rfl rfl (Multiset.le_add_left _ _)
  | requestRead found =>
      refine pops.push collects rfl (List.append_nil _).symm nofun rfl rfl rfl rfl ?_
      rw [keys_of_lookup found]
      exact add_le_add_right (Multiset.le_add_left _ _) _
  | pythonCode found => exact pops.giveUp collects found (sent rfl) settled

-----------------------------------------------------------------------------------------
-- The timers of requests
-----------------------------------------------------------------------------------------

/-- A request is known to have started: a message says so, or its timer was set. -/
inductive Started (state : WorkerLoop) (tk : Token) : Prop
  | message {time} (waits : (tk, time) ∈ state.pool.codeStarts)
  | result {st} (waits : .ok (.serverPythonCodeTimeoutNew tk st) ∈ state.phase.workerResults)
  | timer {timeout} (waits : ⟨tk, timeout, .pythonCodeTimeout⟩ ∈ state.worker.poll.timerq)
  | event (waits : (tk, .pythonCodeTimeout) ∈ state.phase.eventsBuf)
  | timeout (waits : (tk, .pythonCode) ∈ state.phase.eventsTimeoutBuf)

/-- A step that adds no message, result or timer of this kind starts no request. -/
theorem Started.mono {tk : Token} (started : after.Started tk)
    (pool : after.pool.codeStarts = self.pool.codeStarts)
    (results
      : ∀ {st}, .ok (.serverPythonCodeTimeoutNew tk st) ∈ after.phase.workerResults →
          .ok (.serverPythonCodeTimeoutNew tk st) ∈ self.phase.workerResults)
    (timerq
      : ∀ {timeout}, ⟨tk, timeout, .pythonCodeTimeout⟩ ∈ after.worker.poll.timerq →
          ⟨tk, timeout, .pythonCodeTimeout⟩ ∈ self.worker.poll.timerq)
    (events
      : (tk, .pythonCodeTimeout) ∈ after.phase.eventsBuf →
          (tk, .pythonCodeTimeout) ∈ self.phase.eventsBuf)
    (timeouts
      : (tk, .pythonCode) ∈ after.phase.eventsTimeoutBuf →
          (tk, .pythonCode) ∈ self.phase.eventsTimeoutBuf)
    : self.Started tk := by
  cases started with
  | message waits => exact .message (pool ▸ waits)
  | result waits => exact .result (results waits)
  | timer waits => exact .timer (timerq waits)
  | event waits => exact .event (events waits)
  | timeout waits => exact .timeout (timeouts waits)

/-- A timer of another kind starts no request. -/
theorem timer_other {timerq : List TimerEntry} {other tk : Token} {time timeout : SystemTime}
    {event : Event} (is : event ≠ .pythonCodeTimeout)
    (waits : ⟨tk, timeout, .pythonCodeTimeout⟩ ∈ timerq ++ [⟨other, time, event⟩])
    : ⟨tk, timeout, .pythonCodeTimeout⟩ ∈ timerq := by
  rcases List.mem_append.mp waits with old | new
  · exact old
  · have same := congrArg TimerEntry.event (List.mem_singleton.mp new)
    exact absurd same.symm is

/-- A handled result starts no other request. -/
theorem Settles.starts {res : ActionResult} {result : Except IoError Unit} {tk : Token}
    (settles : self.Settles bincode res result after) (started : after.Started tk)
    : self.Started tk ∨ ∃ st, res = .ok (.serverPythonCodeTimeoutNew tk st) := by
  cases settles with
  | answered _ _ _ forgets => exact .inl (started.mono rfl id (forgets.timerq ▸ id) id id)
  | lost _ forgets => exact .inl (started.mono rfl id (forgets.timerq ▸ id) id id)
  | accepted => exact .inl (started.mono rfl id (timer_other nofun) id id)
  | @started other st time _ =>
      cases started with
      | timer waits =>
          rcases List.mem_append.mp waits with old | new
          · exact .inl (.timer old)
          · obtain rfl := congrArg TimerEntry.token (List.mem_singleton.mp new)
            exact .inr ⟨st, rfl⟩
      | message waits => exact .inl (.message waits)
      | result waits => exact .inl (.result waits)
      | event waits => exact .inl (.event waits)
      | timeout waits => exact .inl (.timeout waits)
  | _ => exact .inl (started.mono rfl id id id id)

/-- Results other than new timers start no request. -/
theorem result_pushed {phase : WorkerPhase} {more : List ActionResult}
    (collects : phase.collects = true) {tk : Token} {st : SystemTime}
    (others : .ok (.serverPythonCodeTimeoutNew tk st) ∉ more)
    (waits
      : .ok (.serverPythonCodeTimeoutNew tk st) ∈ (phase.pushResults more).workerResults)
    : .ok (.serverPythonCodeTimeoutNew tk st) ∈ phase.workerResults := by
  rw [WorkerPhase.workerResults_pushResults collects] at waits
  exact (List.mem_append.mp waits).resolve_right others

/-- A step that pushes other results starts no request. -/
theorem Started.pushed {tk : Token} {more : List ActionResult} (started : after.Started tk)
    (collects : self.phase.collects = true) (phase : after.phase = self.phase.pushResults more)
    (others : ∀ {st}, .ok (.serverPythonCodeTimeoutNew tk st) ∉ more)
    (pool : after.pool.codeStarts = self.pool.codeStarts)
    (poll : after.worker.poll.timerq = self.worker.poll.timerq)
    : self.Started tk := by
  refine started.mono pool ?_ (poll ▸ id) ?_ ?_
  · rw [phase]
    exact result_pushed collects others
  · rw [phase, WorkerPhase.eventsBuf_pushResults]
    exact id
  · rw [phase, WorkerPhase.eventsTimeoutBuf_pushResults]
    exact id

/-- A timeout that is pushed comes after those that were there. -/
theorem mem_pushTimeout {phase : WorkerPhase} {tk : Token} {timeout : Timeout}
    {item : Token × Timeout}
    (waits : item ∈ (phase.pushTimeout tk timeout).eventsTimeoutBuf)
    : item ∈ phase.eventsTimeoutBuf ∨ item = (tk, timeout) := by
  cases phase with
  | events evs tmos results =>
      exact (List.mem_append.mp waits).imp_right List.mem_singleton.mp
  | _ => exact .inl waits

/-- An event starts no request of its own: messages become results, timers timeouts. -/
theorem Delivers.starts {tk other : Token} {ev : Event}
    (delivers : self.Delivers cfg bincode tk ev after) (collects : self.phase.collects = true)
    (started : after.Started other)
    : self.Started other ∨ ev = .pythonCodeTimeout ∧ other = tk := by
  have unlike {res : ActionResult} (other : Token)
      (differs : ∀ st, res ≠ .ok (.serverPythonCodeTimeoutNew other st)) (st : SystemTime)
      : .ok (.serverPythonCodeTimeoutNew other st) ∉ [res] :=
    fun member => differs st (List.mem_singleton.mp member).symm
  cases delivers with
  | ctrlC | unixStreamRead | unixStreamWrite => exact .inl (started.mono rfl id id id id)
  | refused | newStreamFd =>
      refine .inl (started.pushed collects rfl (unlike _ ?_ _) rfl rfl)
      intro st same
      cases same
  | serverStreamRead _ gives =>
      refine .inl (started.pushed collects rfl (unlike _ ?_ _) rfl rfl)
      rintro st rfl
      cases gives
  | queuedRequests sent =>
      obtain ⟨handed, rfl, -⟩ := PythonThreads.sendQueuedRequests_spec sent
      exact .inl (started.mono rfl id id id id)
  | pollPythonResponses took =>
      obtain ⟨delivered, rfl, -, -, -, -, rfl, -⟩ := PythonThreads.takeResponses_spec took
      left
      cases started with
      | message waits => exact .message (List.mem_of_mem_drop waits)
      | result waits =>
          rw [note, pushResults, WorkerPhase.workerResults_pushResults collects,
            List.mem_append, List.mem_append] at waits
          rcases waits with old | message | response
          · exact .result old
          · obtain ⟨start, there, same⟩ := List.mem_map.mp message
            obtain ⟨rfl, rfl⟩ :=
              Action.serverPythonCodeTimeoutNew.inj (Except.ok.inj same)
            exact .message (List.mem_of_mem_take there)
          · obtain ⟨response, -, same⟩ := List.mem_map.mp response
            cases same
      | timer waits => exact .timer waits
      | event waits =>
          rw [note, pushResults, WorkerPhase.eventsBuf_pushResults] at waits
          exact .event waits
      | timeout waits =>
          rw [note, pushResults, WorkerPhase.eventsTimeoutBuf_pushResults] at waits
          exact .timeout waits
  | serverStreamWrite _ gives =>
      refine .inl (started.pushed collects rfl (unlike _ ?_ _) rfl rfl)
      rintro st rfl
      cases gives
  | casketResponseWrite _ gives =>
      refine .inl (started.pushed collects rfl (unlike _ ?_ _) rfl rfl)
      rintro st rfl
      cases gives
  | requestReadTimeout =>
      refine .inl (started.mono rfl ?_ id ?_ ?_)
      · rw [pushTimeout, WorkerPhase.workerResults_pushTimeout]
        exact id
      · rw [pushTimeout, WorkerPhase.eventsBuf_pushTimeout]
        exact id
      · intro waits
        rcases mem_pushTimeout waits with old | new
        · exact old
        · cases new
  | pythonCodeTimeout =>
      cases started with
      | message waits => exact .inl (.message waits)
      | result waits =>
          rw [pushTimeout, WorkerPhase.workerResults_pushTimeout] at waits
          exact .inl (.result waits)
      | timer waits => exact .inl (.timer waits)
      | event waits =>
          rw [pushTimeout, WorkerPhase.eventsBuf_pushTimeout] at waits
          exact .inl (.event waits)
      | timeout waits =>
          rcases mem_pushTimeout waits with old | new
          · exact .inl (.timeout old)
          · exact .inr ⟨rfl, congrArg Prod.fst new⟩

/-- A timeout starts none. -/
theorem Expires.starts {tk other : Token} {timeout : Timeout}
    (expires : self.Expires tk timeout after) (collects : self.phase.collects = true)
    (started : after.Started other)
    : self.Started other := by
  cases expires with
  | stale => exact started
  | requestRead =>
      refine started.pushed collects rfl ?_ rfl rfl
      exact fun member => nomatch List.mem_singleton.mp member
  | pythonCode =>
      refine started.pushed collects rfl ?_ rfl rfl
      exact fun member => nomatch List.mem_singleton.mp member

/-- Only buffers that already hold it can hold it when a phase changes. -/
theorem Started.phase {tk : Token} {phase : WorkerPhase}
    (started : { self with phase }.Started tk)
    (results : phase.workerResults ⊆ self.phase.workerResults)
    (events : phase.eventsBuf ⊆ self.phase.eventsBuf)
    (timeouts : phase.eventsTimeoutBuf ⊆ self.phase.eventsTimeoutBuf)
    : self.Started tk :=
  started.mono rfl (fun waits => results waits) id (fun waits => events waits)
    fun waits => timeouts waits

/-- What a tick delivers for a started request was a timer. -/
theorem tick_starts {poll : Poller} {events delivered : List (Token × Event)}
    {now : SystemTime} {popped : List TimerEntry}
    {polled : Except IoError (List MioEvent)} {tk : Token}
    (wired : self.worker.poll.Wired) (stands : self.phase = .ticking events)
    (pops : self.worker.poll.Pops now popped)
    (ticked : self.worker.poll.tick events now popped polled = .ok (poll, .ok delivered))
    (waits : (tk, .pythonCodeTimeout) ∈ delivered)
    : self.Started tk := by
  obtain ⟨reads, writes, signals, order, draws, signal⟩ := Poller.tick_delivers ticked
  have there := order.mem_iff.mp waits
  rw [List.mem_append, List.mem_append, List.mem_append, List.mem_append] at there
  rcases there with (old | timer) | (read | write) | interrupted
  · exact .event (stands ▸ old)
  · obtain ⟨⟨token, timeout, event⟩, member, same⟩ := List.mem_map.mp timer
    obtain ⟨rfl, rfl⟩ := Prod.mk.inj same
    exact .timer (List.mem_filter.mp (pops.1.mem_iff.mp member)).1
  · rcases wired.read (draws.reads.found read).1 with same | same <;> cases same
  · rcases wired.write (draws.writes.found write).1 with same | same | same <;> cases same
  · cases signal _ interrupted

/-- A request that is known to have started was with a thread when the message came. -/
theorem Takes.starts {tk : Token} (takes : self.Takes cfg bincode input after)
    (wired : self.worker.poll.Wired) (started : after.Started tk)
    : self.Started tk ∨ tk ∈ outstanding self.pool := by
  cases takes with
  | top stands goes =>
      rw [loopTop_goes goes rfl] at started
      left
      cases started with
      | message waits => exact .message waits
      | timer waits => exact .timer waits
      | event waits =>
          rcases List.mem_append.mp waits with stream | poll
          · obtain ⟨stream, -, same⟩ := List.mem_map.mp stream
            cases same
          · rcases mem_polls poll with same | same <;> cases same
      | result waits => cases waits
      | timeout waits => cases waits
  | tick stands pops ticked =>
      left
      cases started with
      | message waits => exact .message waits
      | timer waits =>
          obtain ⟨_, _, _, _, draws, _⟩ := Poller.tick_delivers ticked
          have there : _ ∈ self.worker.poll.timerq.filter _ := draws.timerq ▸ waits
          exact .timer (List.mem_filter.mp there).1
      | event waits => exact tick_starts wired stands pops ticked waits
      | result waits => cases waits
      | timeout waits => cases waits
  | event stands delivers =>
      left
      rcases delivers.starts rfl started with started | ⟨rfl, rfl⟩
      · refine started.phase ?_ ?_ ?_
        · rw [stands]
          exact List.Subset.refl _
        · rw [stands]
          exact List.subset_cons_self _ _
        · rw [stands]
          exact List.Subset.refl _
      · exact .event (stands ▸ List.mem_cons_self)
  | timeout stands expires =>
      left
      refine (expires.starts rfl started).phase ?_ ?_ ?_
      · rw [stands]
        exact List.Subset.refl _
      · rw [stands]
        exact List.Subset.refl _
      · rw [stands]
        exact List.subset_cons_self _ _
  | reregistered stands =>
      left
      refine started.mono rfl nofun ?_ nofun nofun
      unfold reregisterUnix
      dsimp only
      split <;> exact id
  | result popped settles =>
      left
      obtain ⟨results, timeouts, -, none, -⟩ := WorkerPhase.nextResult_spec popped
      rcases settles.starts started with started | ⟨st, rfl⟩
      · refine started.phase ?_ ?_ ?_
        · rw [results]
          exact List.subset_cons_self _ _
        · rw [none]
          exact List.nil_subset _
        · rw [timeouts]
          exact List.Subset.refl _
      · exact .result (results ▸ List.mem_cons_self)
  | @codeStart thread other time _ handed =>
      cases started with
      | message waits =>
          rcases List.mem_append.mp waits with old | new
          · exact .inl (.message old)
          · obtain ⟨rfl, -⟩ := Prod.mk.inj (List.mem_singleton.mp new)
            exact .inr (Multiset.mem_add.mpr (.inl (List.mem_map.mpr ⟨_, handed, rfl⟩)))
      | timer waits => exact .inl (.timer waits)
      | event waits => exact .inl (.event waits)
      | result waits => exact .inl (.result waits)
      | timeout waits => exact .inl (.timeout waits)
  | socket | respond | threadDies => exact .inl (started.mono rfl id id id id)
  | delivered stands | acted stands | expired stands | settled stands =>
      left
      refine started.phase ?_ ?_ ?_
      · rw [stands]
        exact List.Subset.refl _
      · rw [stands]
        exact List.Subset.refl _
      · rw [stands]
        exact List.Subset.refl _

-----------------------------------------------------------------------------------------
-- Every step is one of the ledger
-----------------------------------------------------------------------------------------

/-- Code timers are for requests that were sent, and no response is left when timeouts are
handled.
-/
structure Timely (state : WorkerLoop) : Prop where
  started : ∀ tk, state.Started tk → tk ∈ state.ledger.sent
  settled : state.phase.expires = true → answering state.phase = 0

/-- The top of the loop receives streams. -/
theorem loopTop_ledger (stands : self.phase = .top) (goes : self.finished = false)
    : self.ledger.Step self.loopTop.ledger := by
  rw [loopTop_goes goes rfl]
  generalize takeStreamFds self.worker.msgBuf.streamFds.length self.worker.msgBuf = taken
  obtain ⟨streams, msgBuf⟩ := taken
  generalize is
    : ({ self with
          worker := { self.worker with msgBuf }
          phase := .ticking (streams.map streamEvent ++ self.polls) }.note
        (streams.map streamReceived))
      = after
  have same
      : after.ledger
        = { self.ledger with
            came := self.ledger.came + (streams.map Prod.fst : List Token)
            early := (streams.map Prod.fst : List Token) + self.ledger.early } := by
    subst is
    have arrivals : (streams.map owned).map Prod.fst = streams.map Prod.fst := by
      rw [List.map_map]
      rfl
    rw [ledger, ledger, earlyTokens, earlyTokens, answering, answering, stands]
    dsimp only [note, WorkerPhase.eventsBuf, WorkerPhase.workerResults]
    rw [counts_append, counts_received, arrivals_top, arrivals, List.filterMap_nil,
      List.filterMap_nil, List.filterMap_nil, List.map_nil, Multiset.coe_nil]
    simp only [add_zero, zero_add]
  exact same ▸ .receive _

/-- A result that is popped was early or a response itself. -/
theorem pops_result {res : ActionResult} {phase : WorkerPhase}
    (popped : self.phase.nextResult = some (res, phase))
    : self.Pops { self with phase } res.early? (newResponse? res) := by
  obtain ⟨results, -, before, none, -⟩ := WorkerPhase.nextResult_spec popped
  have first {γ : Type} (view : ActionResult → Option γ)
      : (self.phase.workerResults.filterMap view : Multiset γ)
        = ((view res).toList : Multiset γ) + (phase.workerResults.filterMap view : List γ) := by
    rw [results]
    cases found : view res with
    | none => rw [List.filterMap_cons_none found]; exact (zero_add _).symm
    | some item => rw [List.filterMap_cons_some found]; rfl
  refine ⟨rfl, rfl, rfl, ?_, first newResponse?⟩
  rw [earlyTokens, earlyTokens, first, before, none, add_left_comm, add_assoc]

/-- A thread that responds moves its request to the channel. -/
theorem outstanding_respond {pool : PythonPool} {thread : Nat} {tk : Token}
    {resp : HttpResponse} (handed : (thread, tk) ∈ pool.outstanding)
    : outstanding
        { pool with
          outstanding := pool.outstanding.erase (thread, tk)
          responses := pool.responses ++ [(tk, resp)] }
      = outstanding pool := by
  have first
      : (pool.outstanding.map Prod.snd : Multiset Token)
        = {tk} + ((pool.outstanding.erase (thread, tk)).map Prod.snd : List Token) :=
    Multiset.coe_eq_coe.mpr ((List.perm_cons_erase handed).map Prod.snd)
  have last
      : ((pool.responses ++ [(tk, resp)]).map Prod.fst : Multiset Token)
        = (pool.responses.map Prod.fst : List Token) + {tk} := by
    rw [List.map_append, ← Multiset.coe_add]
    rfl
  rw [outstanding, outstanding, first, last]
  abel

/-- Every step of the loop is a step of its ledger. -/
theorem Takes.ledger (takes : self.Takes cfg bincode input after)
    (wired : self.worker.poll.Wired) (timely : self.Timely)
    : self.ledger.Step after.ledger := by
  have moved {phase : WorkerPhase} (handled : answering phase = answering self.phase)
      (early : { self with phase }.earlyTokens = self.earlyTokens)
      : self.ledger.Step { self with phase }.ledger :=
    ledger_forget (List.append_nil _).symm nofun rfl rfl rfl handled early.le
  cases takes with
  | top stands goes => exact loopTop_ledger stands goes
  | tick stands pops ticked =>
      refine ledger_forget (List.append_nil _).symm nofun rfl rfl rfl ?_ (le_of_eq ?_)
      · rw [stands]
        rfl
      · have arrivals := (tick_arrivals wired pops ticked).map Prod.fst
        rw [earlyTokens, earlyTokens, stands]
        exact congrArg (· + 0 + _) (Multiset.coe_eq_coe.mpr arrivals)
  | @event tk ev evs tmos results io _ stands delivers =>
      refine delivers.ledger rfl ⟨rfl, rfl, rfl, ?_, ?_⟩
      · rw [earlyTokens, stands, earlyTokens]
        dsimp only [WorkerPhase.eventsBuf, WorkerPhase.workerResults]
        cases is : arrival? (tk, ev) with
        | none =>
            rw [List.filterMap_cons_none is]
            exact (zero_add _).symm
        | some stream =>
            rw [List.filterMap_cons_some is, List.map_cons, ← Multiset.cons_coe,
              ← Multiset.singleton_add, add_assoc, add_assoc, add_assoc]
            rfl
      · rw [stands]
        exact (zero_add _).symm
  | timeout stands expires =>
      have nothing := timely.settled (stands ▸ rfl)
      refine expires.ledger rfl ⟨rfl, rfl, rfl, ?_, ?_⟩ ?_ nothing
      · rw [earlyTokens, stands]
        exact (zero_add _).symm
      · rw [stands]
        exact (zero_add _).symm
      · rintro rfl
        exact timely.started _ (.timeout (stands ▸ List.mem_cons_self))
  | reregistered stands =>
      refine ledger_forget (List.append_nil _).symm nofun rfl rfl rfl ?_ (le_of_eq ?_)
      · rw [stands]
        rfl
      · rw [earlyTokens, earlyTokens, stands]
        rfl
  | result popped settles => exact settles.ledger (pops_result popped)
  | delivered stands => exact moved (stands ▸ rfl) (by rw [earlyTokens, earlyTokens, stands]; rfl)
  | acted stands => exact moved (stands ▸ rfl) (by rw [earlyTokens, earlyTokens, stands]; rfl)
  | expired stands => exact moved (stands ▸ rfl) (by rw [earlyTokens, earlyTokens, stands]; rfl)
  | settled stands => exact moved (stands ▸ rfl) (by rw [earlyTokens, earlyTokens, stands]; rfl)
  | respond _ handed =>
      refine ledger_forget (List.append_nil _).symm nofun rfl ?_ rfl rfl le_rfl
      exact outstanding_respond handed
  | socket => exact ledger_forget (List.append_nil _).symm nofun rfl rfl rfl rfl le_rfl
  | codeStart => exact ledger_forget (List.append_nil _).symm nofun rfl rfl rfl rfl le_rfl
  | threadDies => exact ledger_forget (List.append_nil _).symm nofun rfl rfl rfl rfl le_rfl

/-- A handled result leaves the rest of the results as it is. -/
theorem Settles.phase {res : ActionResult} {result : Except IoError Unit}
    (settles : self.Settles bincode res result after)
    : after.phase = self.phase := by
  cases settles <;> rfl

/-- No response is among the results once timeouts are handled. -/
theorem Takes.unanswered (takes : self.Takes cfg bincode input after)
    (settled : self.phase.expires = true → answering self.phase = 0)
    (expires : after.phase.expires = true)
    : answering after.phase = 0 := by
  cases takes with
  | acted => rfl
  | @timeout tk timeout tmos results result after stands expired =>
      have before : answering self.phase = 0 := settled (stands ▸ rfl)
      rw [stands] at before
      cases expired with
      | stale => exact before
      | requestRead | pythonCode =>
          have pushed := filterMap_pushResults newResponse?
            (show (WorkerPhase.timeouts tmos results).collects = true from rfl)
          exact (pushed [_]).trans ((add_zero _).trans before)
  | expired stands =>
      have before := settled (stands ▸ rfl)
      rw [stands] at before
      exact before
  | @result res phase _ _ _ popped settles =>
      rw [settles.phase] at expires ⊢
      have was : self.phase.expires = true := by
        cases stands : self.phase with
        | actions results tmos =>
            rw [stands] at popped
            cases results with
            | nil => cases popped
            | cons head rest =>
                obtain ⟨-, rfl⟩ := Prod.mk.inj (Option.some.inj popped)
                cases expires
        | timeoutActions => rfl
        | _ => rw [stands] at popped; cases popped
      have all := (pops_result popped).handled
      rw [settled was] at all
      exact Multiset.le_zero.mp ((Multiset.le_add_left _ _).trans_eq all.symm)
  | event stands delivers => cases delivers <;> cases expires
  | top stands goes => rw [loopTop_goes goes rfl] at expires; cases expires
  | tick => cases expires
  | delivered => cases expires
  | settled => cases expires
  | reregistered => cases expires
  | socket => exact settled expires
  | codeStart => exact settled expires
  | respond => exact settled expires
  | threadDies => exact settled expires

/-- The worker's accounts, with what keeps them. -/
structure Accounts (state : WorkerLoop) : Prop where
  wired : state.worker.poll.Wired
  timely : state.Timely
  balanced : state.ledger.Balanced
  exact : state.ledger.came.Nodup → state.ledger.Exact

theorem accounts_new (cfg : Config) : (WorkerLoop.new cfg).Accounts where
  wired := wired_new cfg
  timely :=
    { started := by
        intro tk started
        cases started with
        | message waits | result waits | timer waits | event waits | timeout waits =>
            cases waits
      settled := nofun }
  balanced := ledger_new cfg ▸ Ledger.balanced_empty
  exact _ := ledger_new cfg ▸ Ledger.exact_empty

/-- Every step keeps the accounts. -/
theorem Takes.accounts (takes : self.Takes cfg bincode input after)
    (accounts : self.Accounts)
    : after.Accounts := by
  have step := takes.ledger accounts.wired accounts.timely
  refine ⟨takes.wired accounts.wired, ⟨?_, ?_⟩, step.balanced accounts.balanced, ?_⟩
  · intro tk started
    refine Multiset.mem_of_le step.sent ?_
    rcases takes.starts accounts.wired started with before | handed
    · exact accounts.timely.started tk before
    · rw [accounts.balanced.sent]
      exact Multiset.mem_add.mpr (.inr handed)
  · exact takes.unanswered accounts.timely.settled
  · intro distinct
    refine step.exact accounts.balanced distinct (accounts.exact ?_)
    exact Multiset.nodup_of_le step.came distinct

/-- So every run whose loop has not ended has them. -/
theorem accounts_reach {guard : WorkerLoop → WorkerInput → Prop} {state : WorkerLoop}
    (run : Reach (step cfg crates bincode) guard (.new cfg) state)
    (runs : state.phase.running = true)
    : state.Accounts := by
  refine running_reach Accounts (accounts_new cfg) ?_ run runs
  intro before input after earlier _ takes
  exact takes.accounts earlier

end WorkerLoop
end Casket
