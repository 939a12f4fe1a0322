import Casket.Worker.Accounting
import Casket.Worker.ReaderRuns
import Casket.Worker.Stops

/-! Timeouts and responses exclude each other. The kinds of response that a stream gets bytes
of are followed from the results to the trace, and the accounts decide which kind it is.
-/

namespace Casket

open Lib WorkerEffect

-----------------------------------------------------------------------------------------
-- The bytes a stream gets
-----------------------------------------------------------------------------------------

/-- The response that is to be written for a result: the application's, or a casket response
of some code. Nothing is left to write of one that is done.
-/
@[simp]
def ActionResult.bears : ActionResult → Multiset (Token × Option UInt16)
  | .ok (.serverNewResponse tk _) => {(tk, none)}
  | .ok (.serverContinueWrite tk _ _) => {(tk, none)}
  | .ok (.serverCasketResponseNew tk _ casketResp) => {(tk, some casketResp.code)}
  | .ok (.serverCasketResponseContinue tk _ casketResp) => {(tk, some casketResp.code)}
  | _ => 0

/-- The response that a write is part of. -/
@[simp]
def WorkerEffect.writes : WorkerEffect → Multiset (Token × Option UInt16)
  | .wrote tk code _ => {(tk, code)}
  | _ => 0

namespace WorkerLoop

/-- The responses of all streams, to be written or written. -/
def bearing (self : WorkerLoop) : Multiset (Token × Option UInt16) :=
  total ActionResult.bears self.phase.workerResults
  + contents (fun _ => none) self.worker.serverWritingStreams
  + contents (fun value => some value.2.code) self.worker.serverCasketResponses
  + total writes self.trace

variable {cfg : Config} {crates : Crates} {bincode : Bincode} {self after : WorkerLoop}
  {input : WorkerInput} {item : Token × Option UInt16}

/-- A step that moves nothing between the maps and writes nothing. -/
theorem bearing_same {effects : List WorkerEffect} {news : Multiset (Token × Option UInt16)}
    (trace : after.trace = self.trace ++ effects) (silent : total writes effects = 0)
    (writing : after.worker.serverWritingStreams = self.worker.serverWritingStreams)
    (casket : after.worker.serverCasketResponses = self.worker.serverCasketResponses)
    (results
      : total ActionResult.bears after.phase.workerResults
        = news + total ActionResult.bears self.phase.workerResults)
    : after.bearing = news + self.bearing := by
  rw [bearing, bearing, trace, total_append, silent, writing, casket, results]
  abel

theorem writes_replacing (tk : Token) (replaced : Option TcpStream)
    : total writes (replacing tk replaced) = 0 := by
  cases replaced <;> rfl

theorem writes_ends {res : ActionResult} {result : Except IoError Unit}
    {lines : List WorkerEffect} {ending : Ending} {response : Response} {gone : WorkerEffect}
    (ends : res.Ends result lines ending gone)
    : total writes (lines ++ [.answered ending response, gone]) = 0 := by
  cases ends <;> rfl

/-- An insertion adds at most one item. -/
theorem contents_insert_le {α γ : Type} (view : α → γ) (map : TokenMap α) (tk : Token)
    (value : α)
    : contents view (map.insert tk value) ≤ {(tk, view value)} + contents view map := by
  rw [← contents_insert_add view map tk value]
  exact Multiset.le_add_right _ _

theorem bearing_insertWriting (self : WorkerLoop) (tk : Token) (tcpStream : TcpStream)
    (writer : Writer)
    : (self.insertWriting tk tcpStream writer).bearing ≤ {(tk, none)} + self.bearing := by
  have more := contents_insert_le (fun _ => (none : Option UInt16))
    self.worker.serverWritingStreams tk (tcpStream, writer)
  rw [bearing, bearing, insertWriting]
  dsimp only [note]
  rw [total_append, writes_replacing, add_zero]
  refine (add_le_add_left (add_le_add_left (add_le_add_right more _) _) _).trans_eq ?_
  abel

theorem bearing_insertCasket (self : WorkerLoop) (tk : Token) (tcpStream : TcpStream)
    (casketResp : CasketResponse)
    : (self.insertCasket tk tcpStream casketResp).bearing
      ≤ {(tk, some casketResp.code)} + self.bearing := by
  have more := contents_insert_le (fun value => some value.2.code)
    self.worker.serverCasketResponses tk (tcpStream, casketResp)
  rw [bearing, bearing, insertCasket]
  dsimp only [note]
  rw [total_append, writes_replacing, add_zero]
  refine (add_le_add_left (add_le_add_right more _) _).trans_eq ?_
  abel

/-- A step that pushes and writes nothing keeps what there was. -/
theorem bearing_still {effects : List WorkerEffect} (member : item ∈ after.bearing)
    (trace : after.trace = self.trace ++ effects) (silent : total writes effects = 0)
    (writing : after.worker.serverWritingStreams = self.worker.serverWritingStreams)
    (casket : after.worker.serverCasketResponses = self.worker.serverCasketResponses)
    (results : after.phase.workerResults = self.phase.workerResults)
    : item ∈ self.bearing := by
  rw [bearing, trace, total_append, silent, add_zero, writing, casket, results] at member
  exact member

/-- A handled result leaves at most its own response. -/
theorem Settles.bearing {res : ActionResult} {result : Except IoError Unit}
    (settles : self.Settles bincode res result after)
    : after.bearing ≤ res.bears + self.bearing := by
  have nothing {effects : List WorkerEffect} (trace : after.trace = self.trace ++ effects)
      (silent : total writes effects = 0) (phase : after.phase = self.phase)
      (writing : after.worker.serverWritingStreams = self.worker.serverWritingStreams)
      (casket : after.worker.serverCasketResponses = self.worker.serverCasketResponses)
      : after.bearing ≤ res.bears + self.bearing := by
    have results
        : total ActionResult.bears after.phase.workerResults
          = 0 + total ActionResult.bears self.phase.workerResults := by
      rw [phase, zero_add]
    rw [bearing_same trace silent writing casket results, zero_add]
    exact Multiset.le_add_left _ _
  cases settles with
  | answered _ ends => exact nothing rfl (writes_ends ends) rfl rfl rfl
  | lost => exact nothing rfl rfl rfl rfl rfl
  | accepted => exact nothing rfl (writes_replacing _ _) rfl rfl rfl
  | reading => exact nothing rfl (writes_replacing _ _) rfl rfl rfl
  | queued => exact nothing rfl (writes_replacing _ _) rfl rfl rfl
  | started => exact nothing (List.append_nil _).symm rfl rfl rfl rfl
  | responding => exact bearing_insertWriting _ _ _ _
  | writing => exact bearing_insertWriting _ _ _ _
  | casket is =>
      rcases is with rfl | rfl
      · exact bearing_insertCasket _ _ _ _
      · exact bearing_insertCasket _ _ _ _

/-- Results that are pushed and writes that are noted come to what there was. -/
theorem bearing_pushed {more : List ActionResult} {effects : List WorkerEffect}
    (member : item ∈ after.bearing) (collects : self.phase.collects = true)
    (phase : after.phase = self.phase.pushResults more)
    (trace : after.trace = self.trace ++ effects)
    (writing
      : contents (fun _ => (none : Option UInt16)) after.worker.serverWritingStreams
        ≤ contents (fun _ => none) self.worker.serverWritingStreams)
    (casket
      : contents (fun value => some value.2.code) after.worker.serverCasketResponses
        ≤ contents (fun value => some value.2.code) self.worker.serverCasketResponses)
    : item ∈ total ActionResult.bears more ∨ item ∈ total writes effects
      ∨ item ∈ self.bearing := by
  have grows
      : after.bearing ≤ total ActionResult.bears more + total writes effects + self.bearing := by
    rw [bearing, bearing, phase, trace, WorkerPhase.workerResults_pushResults collects,
      total_append, total_append]
    refine (add_le_add_left (add_le_add (add_le_add_right writing _) casket) _).trans_eq ?_
    abel
  have there := Multiset.mem_of_le grows member
  rwa [Multiset.mem_add, Multiset.mem_add, or_assoc] at there

theorem ReadResult.bears {tk : Token} {tcpStream : TcpStream} {res : ActionResult}
    (gives : ReadResult tk tcpStream res)
    : total ActionResult.bears [res] = 0 := by
  cases gives <;> rfl

theorem WriteResult.bears {tk : Token} {tcpStream : TcpStream} {res : ActionResult}
    (gives : WriteResult tk tcpStream res) (member : item ∈ total ActionResult.bears [res])
    : item = (tk, none) := by
  cases gives with
  | «continue» => exact Multiset.mem_singleton.mp member
  | done | failed => cases Multiset.notMem_zero _ member

theorem CasketResult.bears {tk : Token} {tcpStream : TcpStream} {code : UInt16}
    {res : ActionResult} (gives : CasketResult tk tcpStream code res)
    (member : item ∈ total ActionResult.bears [res])
    : item = (tk, some code) := by
  cases gives with
  | «continue» _ same => exact same ▸ Multiset.mem_singleton.mp member
  | done | failed => cases Multiset.notMem_zero _ member

theorem contents_erase_le {α γ : Type} (view : α → γ) {map : TokenMap α} {tk : Token}
    {value : α} (found : map.lookup tk = some value)
    : contents view (map.erase tk) ≤ contents view map := by
  rw [contents_of_lookup view found]
  exact Multiset.le_add_left _ _

/-- A response is accounted for: the application's was delivered, and a 504 is for a request
that was given up.
-/
structure Owed (state : WorkerLoop) (item : Token × Option UInt16) : Prop where
  response : item.2 = none → item.1 ∈ (counts state.trace).delivered
  timeout : item.2 = some 504 → item.1 ∈ (counts state.trace).givenUp

theorem mem_bearing_writing {tk : Token} {value : TcpStream × Writer}
    (found : self.worker.serverWritingStreams.lookup tk = some value)
    : (tk, none) ∈ self.bearing := by
  rw [bearing, contents_of_lookup (fun _ => none) found]
  simp only [Multiset.mem_add, Multiset.mem_singleton, true_or, or_true]

theorem mem_bearing_casket {tk : Token} {tcpStream : TcpStream} {casketResp : CasketResponse}
    (found : self.worker.serverCasketResponses.lookup tk = some (tcpStream, casketResp))
    : (tk, some casketResp.code) ∈ self.bearing := by
  rw [bearing, contents_of_lookup (fun value => some value.2.code) found]
  simp only [Multiset.mem_add, Multiset.mem_singleton, true_or, or_true]

/-- What taking responses adds was delivered. -/
theorem bearing_take {observed : PythonThreads.Observed} {pythonThreads : PythonThreads}
    {pool : PythonPool} {results : List ActionResult} (collects : self.phase.collects = true)
    (took
      : self.worker.pythonThreads.takeResponses self.pool [] observed
        = .ok (pythonThreads, pool, results, .ok ()))
    (member
      : item
        ∈ (({ self with worker := { self.worker with pythonThreads }, pool }.pushResults
              results).note
            (((self.pool.responses.take observed.responses).map Prod.fst).map
                WorkerEffect.taken
              ++ (results.filterMap newResponse?).map WorkerEffect.delivered)).bearing)
    : item ∈ self.bearing
      ∨ (({ self with worker := { self.worker with pythonThreads }, pool }.pushResults
            results).note
          (((self.pool.responses.take observed.responses).map Prod.fst).map
              WorkerEffect.taken
            ++ (results.filterMap newResponse?).map WorkerEffect.delivered)).Owed item := by
  have there := bearing_pushed member collects rfl rfl le_rfl le_rfl
  obtain ⟨delivered, rfl, -⟩ := PythonThreads.takeResponses_spec took
  rw [filterMap_newResponse] at there ⊢
  have responses
      : total ActionResult.bears (delivered.map PythonThreads.newResponse)
        = (delivered.map fun response => (response.1, none) : List (Token × Option UInt16)) :=
    total_map ActionResult.bears PythonThreads.newResponse _ (fun _ => rfl) delivered
  rw [total_append, total_append, total_map_none ActionResult.bears _ (fun _ => rfl),
    total_map_none writes _ (fun _ => rfl), total_map_none writes _ (fun _ => rfl), zero_add,
    add_zero, responses] at there
  rcases there with new | none | old
  · obtain ⟨response, answered, rfl⟩ := List.mem_map.mp new
    refine .inr ⟨fun _ => ?_, nofun⟩
    dsimp only [note, pushResults]
    rw [counts_append, counts_taken]
    exact Multiset.mem_add.mpr (.inr (List.mem_map_of_mem answered))
  · cases Multiset.notMem_zero _ none
  · exact .inl old

/-- What an event adds was written or waited before, or is accounted for. -/
theorem Delivers.bearing {tk : Token} {ev : Event}
    (delivers : self.Delivers cfg bincode tk ev after) (collects : self.phase.collects = true)
    (member : item ∈ after.bearing)
    : item ∈ self.bearing ∨ after.Owed item := by
  have quiet := (List.append_nil self.trace).symm
  cases delivers with
  | ctrlC => exact .inl (bearing_still member quiet rfl rfl rfl rfl)
  | unixStreamRead => exact .inl (bearing_still member rfl rfl rfl rfl rfl)
  | unixStreamWrite => exact .inl (bearing_still member rfl rfl rfl rfl rfl)
  | refused =>
      rcases bearing_pushed member collects rfl quiet le_rfl le_rfl with new | none | old
      · obtain rfl := Multiset.mem_singleton.mp new
        exact .inr ⟨nofun, nofun⟩
      · cases Multiset.notMem_zero _ none
      · exact .inl old
  | newStreamFd =>
      rcases bearing_pushed member collects rfl quiet le_rfl le_rfl with none | none | old
      · cases Multiset.notMem_zero _ none
      · cases Multiset.notMem_zero _ none
      · exact .inl old
  | serverStreamRead _ gives =>
      rcases bearing_pushed member collects rfl rfl le_rfl le_rfl with none | none | old
      · rw [gives.bears] at none
        cases Multiset.notMem_zero _ none
      · cases Multiset.notMem_zero _ none
      · exact .inl old
  | queuedRequests =>
      refine .inl (bearing_still member rfl ?_ rfl rfl rfl)
      exact total_map_none writes _ (fun _ => rfl) _
  | pollPythonResponses took => exact bearing_take collects took member
  | serverStreamWrite found gives =>
      left
      have waits := mem_bearing_writing found
      rcases bearing_pushed member collects rfl rfl (contents_erase_le _ found) le_rfl
        with next | written | old
      · exact gives.bears next ▸ waits
      · exact Multiset.mem_singleton.mp written ▸ waits
      · exact old
  | requestReadTimeout =>
      refine .inl (bearing_still member quiet rfl rfl rfl ?_)
      exact WorkerPhase.workerResults_pushTimeout _ _ _
  | casketResponseWrite found gives =>
      left
      have waits := mem_bearing_casket found
      rcases bearing_pushed member collects rfl rfl le_rfl (contents_erase_le _ found)
        with next | written | old
      · exact gives.bears next ▸ waits
      · exact Multiset.mem_singleton.mp written ▸ waits
      · exact old
  | pythonCodeTimeout =>
      refine .inl (bearing_still member quiet rfl rfl rfl ?_)
      exact WorkerPhase.workerResults_pushTimeout _ _ _

/-- So does a timeout. -/
theorem Expires.bearing {tk : Token} {timeout : Timeout}
    (expires : self.Expires tk timeout after) (collects : self.phase.collects = true)
    (member : item ∈ after.bearing)
    : item ∈ self.bearing ∨ after.Owed item := by
  cases expires with
  | stale => exact .inl member
  | requestRead =>
      have quiet := (List.append_nil self.trace).symm
      rcases bearing_pushed member collects rfl quiet le_rfl le_rfl with new | none | old
      · obtain rfl := Multiset.mem_singleton.mp new
        exact .inr ⟨nofun, nofun⟩
      · cases Multiset.notMem_zero _ none
      · exact .inl old
  | pythonCode =>
      rcases bearing_pushed member collects rfl rfl le_rfl le_rfl with new | none | old
      · obtain rfl := Multiset.mem_singleton.mp new
        refine .inr ⟨nofun, fun _ => ?_⟩
        dsimp only [note, pushResults]
        rw [counts_append]
        exact Multiset.mem_add.mpr (.inr (Multiset.mem_singleton_self tk))
      · cases Multiset.notMem_zero _ none
      · exact .inl old

/-- So does every step. -/
theorem Takes.bearing (takes : self.Takes cfg bincode input after)
    (member : item ∈ after.bearing)
    : item ∈ self.bearing ∨ after.Owed item := by
  have silent : total writes [] = 0 := rfl
  have quiet := (List.append_nil self.trace).symm
  cases takes with
  | top stands goes =>
      rw [loopTop_goes goes rfl] at member
      refine .inl (bearing_still member rfl ?_ rfl rfl (stands ▸ rfl))
      exact total_map_none writes _ (fun _ => rfl) _
  | tick stands => exact .inl (bearing_still member quiet silent rfl rfl (stands ▸ rfl))
  | event stands delivers =>
      refine (delivers.bearing rfl member).imp_left fun before => ?_
      rw [bearing, stands]
      exact before
  | timeout stands expires =>
      refine (expires.bearing rfl member).imp_left fun before => ?_
      rw [bearing, stands]
      exact before
  | reregistered stands => exact .inl (bearing_still member quiet silent rfl rfl (stands ▸ rfl))
  | @result res phase _ _ _ popped settles =>
      left
      have there := Multiset.mem_of_le settles.bearing member
      obtain ⟨results, -⟩ := WorkerPhase.nextResult_spec popped
      have whole : self.bearing = res.bears + { self with phase }.bearing := by
        rw [bearing, results, total_cons, bearing]
        abel
      exact whole ▸ there
  | delivered stands | acted stands | expired stands | settled stands =>
      exact .inl (bearing_still member quiet silent rfl rfl (stands ▸ rfl))
  | socket | codeStart | respond | threadDies =>
      exact .inl (bearing_still member quiet silent rfl rfl rfl)

-----------------------------------------------------------------------------------------
-- Whole runs
-----------------------------------------------------------------------------------------

/-- Every response that a stream gets bytes of is accounted for. -/
def Paid (state : WorkerLoop) : Prop := ∀ item ∈ state.bearing, state.Owed item

theorem paid_new (cfg : Config) : (WorkerLoop.new cfg).Paid := by
  intro item member
  cases Multiset.notMem_zero item member

/-- What is accounted for stays so. -/
theorem Owed.mono (owed : self.Owed item) (step : self.ledger.Step after.ledger)
    : after.Owed item where
  response is := Multiset.mem_of_le step.delivered (owed.response is)
  timeout is := Multiset.mem_of_le step.givenUp (owed.timeout is)

theorem Takes.paid (takes : self.Takes cfg bincode input after) (accounts : self.Accounts)
    (paid : self.Paid)
    : after.Paid := by
  intro item member
  rcases takes.bearing member with before | owed
  · exact (paid item before).mono (takes.ledger accounts.wired accounts.timely)
  · exact owed

theorem paid_reach {guard : WorkerLoop → WorkerInput → Prop} {state : WorkerLoop}
    (run : Reach (step cfg crates bincode) guard (.new cfg) state)
    (runs : state.phase.running = true)
    : state.Accounts ∧ state.Paid := by
  refine running_reach (fun state => state.Accounts ∧ state.Paid)
    ⟨accounts_new cfg, paid_new cfg⟩ ?_ run runs
  rintro before input after ⟨accounts, paid⟩ _ takes
  exact ⟨takes.accounts accounts, takes.paid accounts paid⟩

/-- A step that ends the loop moves no request. -/
theorem Passes.idle {effect : WorkerEffect} (passes : self.Passes effect)
    : effect.idle = true := by
  cases effect with
  | received | sent | taken | delivered | timedOut => cases passes
  | _ => rfl

/-- What it writes waited to be written. -/
theorem Passes.bearing {tk : Token} {code : Option UInt16} {size : Nat}
    (passes : self.Passes (.wrote tk code size))
    : (tk, code) ∈ self.bearing := by
  cases code with
  | none =>
      obtain ⟨value, found⟩ := exists_lookup passes
      exact mem_bearing_writing found
  | some code =>
      obtain ⟨tcpStream, casketResp, found, rfl⟩ := passes
      exact mem_bearing_casket found

theorem mem_bearing_trace {tk : Token} {code : Option UInt16} {size : Nat}
    (wrote : .wrote tk code size ∈ self.trace)
    : (tk, code) ∈ self.bearing := by
  have there : (tk, code) ∈ total writes self.trace := by
    obtain ⟨front, back, same⟩ := List.append_of_mem wrote
    rw [same, total_append, total_cons]
    exact Multiset.mem_add.mpr (.inr (Multiset.mem_add.mpr (.inl (Multiset.mem_singleton_self _))))
  exact Multiset.mem_add.mpr (.inr there)

/-- The accounts of the python threads at the top of the loop: the requests that are with the
threads, those among them that timed out, and the streams that wait.
-/
structure Accounted (state : WorkerLoop) : Prop where
  pending
    : state.worker.pythonThreads.numPendingReqs
      = (total sends state.trace - total takes state.trace).card
  timedOut
    : ∀ tk,
        tk ∈ state.worker.pythonThreads.timedOutReqs
        ↔ tk ∈ total sends state.trace - total takes state.trace
          ∧ tk ∈ total givesUp state.trace
  waiting
    : ∀ tk,
        tk ∈ state.worker.serverPendingStreams.keys
        ↔ tk ∈ state.worker.pythonThreads.queuedReqs.map Prod.fst
          ∨ tk ∈ total sends state.trace - total takes state.trace
            ∧ tk ∉ state.worker.pythonThreads.timedOutReqs

/-- Each response that was taken was handed on once, or discarded because its request timed
out; no other was handed on, and no stream got bytes of both a response and a 504.
-/
structure Exclusive (state : WorkerLoop) : Prop where
  once
    : ∀ tk ∈ total takes state.trace,
        (total delivers state.trace).count tk
        = if tk ∈ total givesUp state.trace then 0 else 1
  only : total delivers state.trace ≤ total takes state.trace
  apart
    : ∀ tk written refused,
        .wrote tk none written ∈ state.trace → .wrote tk (some 504) refused ∉ state.trace

/-- At the top of the loop no response is being handled. -/
theorem Accounts.accounted (accounts : self.Accounts)
    (distinct : (counts self.trace).came.Nodup) (stands : self.phase = .top)
    : self.Accounted := by
  have exact := accounts.exact distinct
  have left
      : total sends self.trace - total takes self.trace = outstanding self.pool := by
    have sent : total sends self.trace = total takes self.trace + outstanding self.pool :=
      accounts.balanced.sent
    rw [sent, add_tsub_cancel_left]
  have handled : answering self.phase = 0 := by
    rw [stands]
    rfl
  constructor
  · rw [left]
    exact accounts.balanced.counter
  · intro tk
    rw [left]
    exact exact.mem_late accounts.balanced distinct
  · intro tk
    rw [left, ← List.mem_toFinset]
    exact exact.mem_waiting accounts.balanced distinct handled

/-- The accounts decide what became of each response. -/
theorem Accounts.exclusive {state : WorkerLoop} (accounts : self.Accounts) (paid : self.Paid)
    (distinct : (counts self.trace).came.Nodup) (same : counts state.trace = counts self.trace)
    (wrote
      : ∀ tk code size, .wrote tk code size ∈ state.trace → (tk, code) ∈ self.bearing)
    : state.Exclusive := by
  have exact := accounts.exact distinct
  have taken : total takes state.trace = self.ledger.taken := congrArg Counts.taken same
  have delivered : total delivers state.trace = self.ledger.delivered :=
    congrArg Counts.delivered same
  have givenUp : total givesUp state.trace = self.ledger.givenUp :=
    congrArg Counts.givenUp same
  constructor
  · intro tk member
    rw [taken] at member
    have one := exact.taken_once accounts.balanced distinct member
    rw [delivered, givenUp]
    split
    · next late =>
        have some := Multiset.count_pos.mpr late
        omega
    · next live =>
        have none := Multiset.count_eq_zero.mpr live
        omega
  · rw [taken, delivered]
    exact accounts.balanced.delivered
  · intro tk written refused response timeout
    have first := (paid _ (wrote tk none written response)).response rfl
    have second := (paid _ (wrote tk (some 504) refused timeout)).timeout rfl
    exact exact.exclusive accounts.balanced distinct first second

/-- The count of pending requests covers the responses in the channel. -/
theorem Accounts.counted (accounts : self.Accounts)
    : self.pool.responses.length ≤ self.worker.pythonThreads.numPendingReqs := by
  have counter : self.worker.pythonThreads.numPendingReqs = (outstanding self.pool).card :=
    accounts.balanced.counter
  rw [counter, outstanding, Multiset.card_add, Multiset.coe_card, Multiset.coe_card,
    List.length_map, List.length_map]
  exact Nat.le_add_left _ _

/-- So it never underflows. -/
theorem Accounts.covers {phase : WorkerPhase} (accounts : self.Accounts)
    (stops : self.Stops cfg crates bincode input phase)
    : phase ≠ .panicked .numPendingReqsUnderflow := by
  rintro rfl
  cases stops with
  | tick _ failed => cases Poller.tick_inner failed
  | event _ breaks =>
      cases breaks.lacks rfl with
      | uncounted fewer => exact Nat.not_lt.mpr accounts.counted fewer
  | result _ misses => cases misses

/-- With distinct tokens, whatever the threads and the timers do: the accounts at the top of
the loop are right, the count of pending requests never underflows, and a response and a
timeout exclude each other. Witness: the ledger of the run is exact, and every response that
bytes are written of was delivered or is a 504 for a request that was given up.
-/
theorem timeouts_exclude_responses (cfg : Config) (crates : Crates) (bincode : Bincode)
    : ∀ state,
        Reach (step cfg crates bincode) (fun _ _ => True) (.new cfg) state →
        ((total came state.trace).map Prod.fst).Nodup →
        (state.phase = .top → state.Accounted)
        ∧ state.phase ≠ .panicked .numPendingReqsUnderflow
        ∧ state.Exclusive := by
  intro state run distinct
  cases runs : state.phase.running with
  | true =>
      obtain ⟨accounts, paid⟩ := paid_reach run runs
      refine ⟨accounts.accounted distinct, ?_, ?_⟩
      · intro stands
        rw [stands] at runs
        cases runs
      · exact accounts.exclusive paid distinct rfl fun _ _ _ wrote => mem_bearing_trace wrote
  | false =>
      obtain ⟨before, input, ended⟩ := stopped_reach run runs
      obtain ⟨accounts, paid⟩ := paid_reach ended.run ended.runs
      obtain ⟨effects, trace, passes⟩ := ended.leaves.trace
      have same : counts state.trace = counts before.trace := by
        rw [trace]
        exact counts_idle fun effect member => (passes effect member).idle
      refine ⟨?_, accounts.covers ended.stops, ?_⟩
      · intro stands
        rw [stands] at runs
        cases runs
      · refine accounts.exclusive paid ?_ same ?_
        · rw [← same]
          exact distinct
        · intro tk code size wrote
          rw [trace] at wrote
          rcases List.mem_append.mp wrote with old | new
          · exact mem_bearing_trace old
          · exact (passes _ new).bearing

/-- Two requests are sent. One is answered and its start message is seen later; the other
starts at once, times out, and is answered too late.
-/
def racing : List WorkerInput :=
  let read : WorkerEventIo := { WorkerEventIo.quiet with read := .ok (headOf "0") }
  let send : WorkerEventIo := { WorkerEventIo.quiet with alive := [[0, 1], [0, 1]] }
  WorkerInput.accepting .fixint 0 [⟨5, 7⟩, ⟨6, 8⟩] [9, 10]
  ++ WorkerInput.turn 0 [] [⟨5, true, false⟩, ⟨6, true, false⟩] [read, read] 2 0 0
  ++ WorkerInput.turn 0 [] [] [send] 0 0 0
  ++ [.codeStart 0 6 0, .respond 1 5 ok200]
  ++ WorkerInput.turn 0 [] [] [found 1 1] 2 0 0
  ++ WorkerInput.turn 10000000000 [⟨6, 10000000000, .pythonCodeTimeout⟩]
      [⟨5, false, true⟩] [found 0 0, .quiet, .quiet] 1 1 1
  ++ [.respond 0 6 ok200]
  ++ WorkerInput.turn 10000000000 [] [⟨6, false, true⟩]
      [found 0 1, { WorkerEventIo.quiet with write := .ok 10 }] 1 0 0

theorem timeouts_exclude_responses_racing
    : ∃ state : WorkerLoop,
        total takes state.trace = {5, 6}
        ∧ total givesUp state.trace = {6}
        ∧ state.Accounted
        ∧ state.Exclusive := by
  have runs
      : (exec (step (.default "casket") (.onHead "0") .fixint) (fun _ _ => True)
          (.new (.default "casket")) racing).map
          (fun state =>
            ((total came state.trace).map Prod.fst, total takes state.trace,
              total givesUp state.trace, state.phase.isTop))
        = some ({5, 6}, {5, 6}, {6}, true) := by
    decide +kernel
  obtain ⟨state, done, out⟩ := Option.map_eq_some_iff.mp runs
  obtain ⟨tokens, rest⟩ := Prod.mk.inj out
  obtain ⟨taken, rest⟩ := Prod.mk.inj rest
  obtain ⟨givenUp, stands⟩ := Prod.mk.inj rest
  have distinct : ((total came state.trace).map Prod.fst).Nodup := by
    rw [tokens]
    decide
  obtain ⟨accounted, -, exclusive⟩ :=
    timeouts_exclude_responses (.default "casket") (.onHead "0") .fixint state
      (Reach.of_exec _ done) distinct
  exact ⟨state, taken, givenUp, accounted (WorkerPhase.eq_top stands), exclusive⟩

end WorkerLoop
end Casket
