import Casket.Lib.Simulation
import Casket.Worker.Process
import Casket.Worker.Requests

/-! The worker's view of its threads is right: which of them are there, and which requests
each has still to answer, in their order. So what was shown of the loop and any threads holds
of a process.
-/

namespace Casket

open Lib

-----------------------------------------------------------------------------------------
-- The requests that are with one thread
-----------------------------------------------------------------------------------------

/-- The items for one number, in their order. -/
def forThread {α : Type} (n : Nat) (items : List (Nat × α)) : List α :=
  (items.filter (·.1 = n)).map Prod.snd

section ForThread

variable {α : Type} {n : Nat} {items more : List (Nat × α)}

theorem forThread_append : forThread n (items ++ more) = forThread n items ++ forThread n more := by
  rw [forThread, List.filter_append, List.map_append]
  rfl

/-- Erasing an item of one number takes its first occurrence from the items of that number. -/
theorem forThread_erase [DecidableEq α] (item : α)
    : forThread n (items.erase (n, item)) = (forThread n items).erase item := by
  induction items with
  | nil => rfl
  | cons head rest ih =>
      obtain ⟨m, first⟩ := head
      unfold forThread at ih ⊢
      by_cases same : m = n
      · subst same
        by_cases here : first = item
        · subst here
          simp
        · have apart : ¬ (m, first) = (m, item) := fun both => here (Prod.mk.inj both).2
          rw [List.erase_cons_tail (by simpa using apart)]
          simp only [List.filter_cons, decide_true, if_true, List.map_cons]
          rw [List.erase_cons_tail (by simpa using here), ih]
      · have apart : ¬ (m, first) = (n, item) := fun both => same (Prod.mk.inj both).1
        rw [List.erase_cons_tail (by simpa using apart)]
        simpa [List.filter_cons, same] using ih

/-- It leaves the items of another number alone. -/
theorem forThread_erase_ne [DecidableEq α] {m : Nat} (apart : m ≠ n) (item : α)
    : forThread n (items.erase (m, item)) = forThread n items := by
  induction items with
  | nil => rfl
  | cons head rest ih =>
      unfold forThread at ih ⊢
      by_cases here : head = (m, item)
      · subst here
        simp [apart]
      · rw [List.erase_cons_tail (by simpa using here)]
        simp only [List.filter_cons]
        split
        · rw [List.map_cons, List.map_cons, ih]
        · exact ih

theorem mem_forThread {item : α} : item ∈ forThread n items ↔ (n, item) ∈ items := by
  simp [forThread]

/-- Items that are sent on under the numbers of others keep those numbers, by induction. -/
theorem zip_numbers {β : Type} {handed : List (Nat × α)} {requests : List (α × β)}
    (same : handed.map Prod.snd = requests.map Prod.fst)
    : ((handed.map Prod.fst).zip requests).map (fun item => (item.1, item.2.1)) = handed := by
  induction handed generalizing requests with
  | nil => rfl
  | cons head rest ih =>
      cases requests with
      | nil => cases same
      | cons request others =>
          obtain ⟨token, tokens⟩ := List.cons.inj same
          rw [List.map_cons, List.zip_cons_cons, List.map_cons, ih tokens, ← token]

end ForThread

-----------------------------------------------------------------------------------------
-- What sending and dying do to the threads
-----------------------------------------------------------------------------------------

/-- Changing the item that is found is setting it. -/
theorem modify_found {α : Type} {items : List α} {n : Nat} {item : α} (change : α → α)
    (found : items[n]? = some item)
    : items.modify n change = items.set n (change item) := by
  obtain ⟨within, rfl⟩ := List.getElem?_eq_some_iff.mp found
  refine List.ext_getElem? fun m => ?_
  rw [List.getElem?_modify, List.getElem?_set]
  by_cases same : n = m
  · subst same
    simp [within]
  · simp [same]

namespace PythonThread

/-- Some requests are sent to a thread. -/
def handAll (self : PythonThread) (requests : List (Token × HttpRequest)) : PythonThread :=
  { self with recv := self.recv ++ requests, handed := self.handed ++ requests }

theorem unanswered_handAll (self : PythonThread) (requests : List (Token × HttpRequest))
    : (self.handAll requests).unanswered = self.unanswered ++ requests.map Prod.fst := by
  rw [unanswered, unanswered, handAll, List.map_append, List.append_assoc]

end PythonThread

/-- Each thread gets its requests, by induction on them. -/
theorem getElem?_handAll (handed : List (Nat × Token × HttpRequest))
    (threads : List PythonThread) (n : Nat)
    : (handed.foldl
          (fun threads (m, request) => threads.modify m fun thread => thread.hand request)
          threads)[n]?
      = (threads[n]?).map fun thread => thread.handAll (forThread n handed) := by
  induction handed generalizing threads with
  | nil =>
      rw [List.foldl_nil]
      cases threads[n]? with
      | none => rfl
      | some thread => simp [PythonThread.handAll, forThread]
  | cons head rest ih =>
      obtain ⟨m, request⟩ := head
      rw [List.foldl_cons, ih, List.getElem?_modify]
      by_cases same : m = n
      · subst same
        cases threads[m]? with
        | none => rfl
        | some thread => simp [PythonThread.handAll, PythonThread.hand, forThread]
      · cases threads[n]? with
        | none => simp [same]
        | some thread => simp [same, forThread]

/-- Their number stays. -/
theorem length_handAll (handed : List (Nat × Token × HttpRequest))
    (threads : List PythonThread)
    : (handed.foldl
          (fun threads (m, request) => threads.modify m fun thread => thread.hand request)
          threads).length
      = threads.length := by
  induction handed generalizing threads with
  | nil => rfl
  | cons head rest ih => rw [List.foldl_cons, ih, List.length_modify]

namespace WorkerProcess

variable {parser : StatusParser} {cfg : Config} {crates : Crates} {bincode : Bincode}
  {self after : WorkerProcess}

theorem mem_living {n : Nat}
    : n ∈ self.living
      ↔ ∃ thread, self.threads[n]? = some thread ∧ thread.phase.alive = true := by
  rw [living, List.mem_filter, List.mem_range]
  constructor
  · rintro ⟨-, lives⟩
    exact (Option.any_eq_true _ _).mp lives
  · rintro ⟨thread, found, lives⟩
    exact ⟨(List.getElem?_eq_some_iff.mp found).1, by simp [found, lives]⟩

/-- The threads after one of them has died. -/
theorem getElem?_die (n m : Nat)
    : (self.die n).threads[m]?
      = (self.threads[m]?).map fun thread => if n = m then thread.ends else thread := by
  rw [die, List.getElem?_modify]
  rfl

theorem living_die {n m : Nat} : m ∈ (self.die n).living ↔ m ∈ self.living ∧ n ≠ m := by
  rw [mem_living, mem_living]
  simp only [getElem?_die, Option.map_eq_some_iff]
  constructor
  · rintro ⟨-, ⟨thread, found, rfl⟩, lives⟩
    by_cases same : n = m
    · rw [if_pos same] at lives
      cases lives
    · rw [if_neg same] at lives
      exact ⟨⟨thread, found, lives⟩, same⟩
  · rintro ⟨⟨thread, found, lives⟩, apart⟩
    exact ⟨thread, ⟨thread, found, if_neg apart⟩, lives⟩

-----------------------------------------------------------------------------------------
-- The worker's view
-----------------------------------------------------------------------------------------

/-- The worker's view of its threads is right. -/
structure Manned (process : WorkerProcess) : Prop where
  once : process.loop.pool.alive.Nodup
  alive : ∀ n, n ∈ process.loop.pool.alive ↔ n ∈ process.living
  unanswered
    : ∀ n thread,
        process.threads[n]? = some thread →
        thread.phase.alive = true →
        forThread n process.loop.pool.outstanding = thread.unanswered

theorem manned_new (cfg : Config) : (new cfg).Manned where
  once := List.nodup_range
  alive n := by
    rw [mem_living]
    simp only [new, WorkerLoop.new, PythonPool.new, List.mem_range, List.getElem?_replicate]
    constructor
    · intro within
      exact ⟨.new, if_pos within, rfl⟩
    · rintro ⟨thread, found, -⟩
      split at found
      · assumption
      · cases found
  unanswered n thread found _ := by
    have is : thread = .new := by
      rw [new] at found
      exact (List.mem_replicate.mp (List.mem_of_getElem? found)).2
    subst is
    rfl

/-- A thread dies, and the worker's view with it. -/
theorem Manned.die (manned : self.Manned) (n : Nat) : (self.die n).Manned where
  once := manned.once.erase n
  alive m := by
    rw [living_die, ← manned.alive]
    refine (manned.once.mem_erase_iff).trans ?_
    rw [and_comm, ne_comm]
  unanswered m thread found lives := by
    rw [getElem?_die] at found
    obtain ⟨earlier, there, rfl⟩ := Option.map_eq_some_iff.mp found
    split at lives
    · cases lives
    · next apart =>
        rw [if_neg apart]
        exact manned.unanswered m earlier there lives

theorem Manned.dieAll (manned : self.Manned) (dying : List Nat)
    : (dying.foldl WorkerProcess.die self).Manned := by
  induction dying generalizing self with
  | nil => exact manned
  | cons n rest ih => exact ih (manned.die n)

/-- What is not about threads does not matter. -/
theorem Manned.same (manned : self.Manned) (threads : after.threads = self.threads)
    (alive : after.loop.pool.alive = self.loop.pool.alive)
    (outstanding : after.loop.pool.outstanding = self.loop.pool.outstanding)
    : after.Manned := by
  have living : after.living = self.living := by rw [WorkerProcess.living, threads]; rfl
  refine ⟨alive ▸ manned.once, ?_, ?_⟩
  · rw [alive, living]
    exact manned.alive
  · rw [threads, outstanding]
    exact manned.unanswered

/-- The thread a request is with is known. -/
theorem Manned.handed (manned : self.Manned) {n : Nat} {thread : PythonThread} {key : Token}
    {rest : List Token} (found : self.threads[n]? = some thread)
    (lives : thread.phase.alive = true) (first : thread.unanswered = key :: rest)
    : n ∈ self.loop.pool.alive ∧ (n, key) ∈ self.loop.pool.outstanding := by
  refine ⟨(manned.alive n).mpr (mem_living.mpr ⟨thread, found, lives⟩), ?_⟩
  rw [← mem_forThread, manned.unanswered n thread found lives, first]
  exact List.mem_cons_self

/-- A thread goes on and still has the same to answer. -/
theorem Manned.goesOn (manned : self.Manned) {n : Nat} {thread next : PythonThread}
    (found : self.threads[n]? = some thread) (lives : thread.phase.alive = true)
    (still : next.phase.alive = true) (threads : after.threads = self.threads.set n next)
    (alive : after.loop.pool.alive = self.loop.pool.alive)
    (others
      : ∀ m, m ≠ n →
          forThread m after.loop.pool.outstanding = forThread m self.loop.pool.outstanding)
    (own
      : forThread n self.loop.pool.outstanding = thread.unanswered →
          forThread n after.loop.pool.outstanding = next.unanswered)
    : after.Manned := by
  have within := (List.getElem?_eq_some_iff.mp found).1
  refine ⟨alive ▸ manned.once, ?_, ?_⟩
  · intro m
    rw [alive, manned.alive, mem_living, mem_living, threads]
    by_cases same : m = n
    · subst same
      rw [found, List.getElem?_set_self within]
      simp [lives, still]
    · rw [List.getElem?_set_ne (Ne.symm same)]
  · intro m other there up
    rw [threads] at there
    by_cases same : m = n
    · subst same
      rw [List.getElem?_set_self within] at there
      obtain rfl := Option.some.inj there
      exact own (manned.unanswered m thread found lives)
    · rw [List.getElem?_set_ne (Ne.symm same)] at there
      rw [others m same]
      exact manned.unanswered m other there up

end WorkerProcess

-----------------------------------------------------------------------------------------
-- What the loop does to it
-----------------------------------------------------------------------------------------

namespace WorkerLoop

variable {cfg : Config} {crates : Crates} {bincode : Bincode} {self after : WorkerLoop}

/-- The threads and what they are to answer are as they were. -/
structure SameView (before after : WorkerLoop) : Prop where
  alive : after.pool.alive = before.pool.alive
  outstanding : after.pool.outstanding = before.pool.outstanding

/-- A result that is handled has nothing to do with the threads. -/
theorem Settles.sameView {res : ActionResult} {result : Except IoError Unit}
    (settles : self.Settles bincode res result after)
    : self.SameView after := by
  cases settles with
  | _ => exact ⟨rfl, rfl⟩

/-- Of the events only the queue sends requests. -/
theorem Delivers.sameView {tk : Token} {ev : Event}
    (delivers : self.Delivers cfg bincode tk ev after) (keeps : ev ≠ .queuedRequests)
    : self.SameView after := by
  cases delivers with
  | queuedRequests => exact absurd rfl keeps
  | pollPythonResponses took =>
      obtain ⟨-, -, -, -, -, -, rfl, -⟩ := PythonThreads.takeResponses_spec took
      exact ⟨rfl, rfl⟩
  | _ => exact ⟨rfl, rfl⟩

/-- Nor does any other step of the loop's own. -/
theorem Takes.sameView {input : WorkerInput} (takes : self.Takes cfg bincode input after)
    (own : input.ofThread = false)
    (keeps
      : ∀ io, input = .event io → ∀ tk, self.phase.nextEvent? ≠ some (tk, .queuedRequests))
    : self.SameView after := by
  cases takes with
  | top stands goes =>
      simp only [loopTop, goes, Bool.false_eq_true, if_false]
      exact ⟨rfl, rfl⟩
  | event stands delivers =>
      have view := delivers.sameView fun same => by
        subst same
        exact keeps _ rfl _ (by rw [stands]; rfl)
      exact ⟨view.alive, view.outstanding⟩
  | timeout _ expires => cases expires <;> exact ⟨rfl, rfl⟩
  | result _ settles =>
      have view := settles.sameView
      exact ⟨view.alive, view.outstanding⟩
  | codeStart | respond | threadDies => cases own
  | _ => exact ⟨rfl, rfl⟩

/-- An event that sends the queued requests, and the loop goes on. -/
theorem step_queued {tk : Token} {io : WorkerEventIo}
    (next : self.phase.nextEvent? = some (tk, .queuedRequests))
    (taken : self.step cfg crates bincode (.event io) = some after)
    (runs : after.phase.running = true)
    : ∃ threads pool,
        self.worker.pythonThreads.sendQueuedRequests self.pool io.alive
          = .ok (threads, pool, .ok ())
        ∧ after.pool = pool := by
  cases stands : self.phase with
  | events evs tmos results =>
      rw [stands] at next
      cases evs with
      | nil => cases next
      | cons first evs =>
          obtain rfl := Option.some.inj next
          simp only [step, stands] at taken
          obtain rfl := Option.some.inj taken
          unfold queuedRequests at runs ⊢
          split
          · next panicked => rw [panicked] at runs; cases runs
          · next ended => rw [ended] at runs; cases runs
          · next threads pool sent => exact ⟨threads, pool, sent, rfl⟩
  | _ => rw [stands] at next; cases next

/-- A thread dies whatever the loop is doing. -/
theorem step_threadDies (n : Nat)
    : self.step cfg crates bincode (.threadDies n)
      = some { self with pool := self.pool.threadDies n } := by
  unfold step
  split
  case h_14 same =>
    cases same
    rfl
  case h_15 other _ _ _ _ _ _ _ _ _ => exact absurd rfl (other n)
  all_goals contradiction

/-- So does it send. -/
theorem step_codeStart (n : Nat) (tk : Token) (time : SystemTime)
    : self.step cfg crates bincode (.codeStart n tk time)
      = (self.pool.codeStart n tk time).map fun pool => { self with pool } := by
  unfold step
  split
  case h_12 same =>
    cases same
    rfl
  case h_15 other _ _ _ _ _ _ _ _ _ _ _ => exact absurd rfl (other n tk time)
  all_goals contradiction

theorem step_respond (n : Nat) (tk : Token) (resp : HttpResponse)
    : self.step cfg crates bincode (.respond n tk resp)
      = (self.pool.respond n tk resp).map fun pool => { self with pool } := by
  unfold step
  split
  case h_13 same =>
    cases same
    rfl
  case h_15 other _ _ _ _ _ _ _ _ _ _ => exact absurd rfl (other n tk resp)
  all_goals contradiction

end WorkerLoop

namespace WorkerProcess

variable {parser : StatusParser} {cfg : Config} {crates : Crates} {bincode : Bincode}
  {self after : WorkerProcess} {loop : WorkerLoop}

/-- Nothing but the queue hands requests to threads, or finds that they died. -/
theorem handed_none {io : WorkerEventIo}
    (keeps : ∀ tk, self.loop.phase.nextEvent? ≠ some (tk, .queuedRequests))
    : self.handed io = [] ∧ self.dying io = [] := by
  unfold handed dying
  constructor
  · split
    · next next => exact absurd next (keeps _)
    · rfl
  · split
    · next next => exact absurd next (keeps _)
    · rfl

/-- The requests that are handed to threads are the queued ones, each to the thread that it is
counted for.
-/
theorem handed_sent {tk : Token} {io : WorkerEventIo} {threads : PythonThreads}
    {pool : PythonPool} (next : self.loop.phase.nextEvent? = some (tk, .queuedRequests))
    (sent
      : self.loop.worker.pythonThreads.sendQueuedRequests self.loop.pool io.alive
        = .ok (threads, pool, .ok ()))
    : pool
        = { self.loop.pool with
            outstanding :=
              self.loop.pool.outstanding
              ++ (self.handed io).map fun item => (item.1, item.2.1) }
      ∧ ∀ item ∈ self.handed io, item.2 ∈ self.loop.worker.pythonThreads.queuedReqs := by
  obtain ⟨handed, rfl, tokens, -⟩ := PythonThreads.sendQueuedRequests_spec sent
  have given
      : self.handed io
        = (handed.map Prod.fst).zip self.loop.worker.pythonThreads.queuedReqs := by
    simp only [WorkerProcess.handed, next, sent]
    rw [List.drop_left]
  rw [given]
  refine ⟨by rw [zip_numbers tokens], fun item member => ?_⟩
  exact (List.of_mem_zip member).2

/-- The threads after an event, with what they were handed. -/
theorem getElem?_eventDone (io : WorkerEventIo) (loop : WorkerLoop) (n : Nat)
    : (self.eventDone io loop).threads[n]?
      = (self.threads[n]?).map fun thread => thread.handAll (forThread n (self.handed io)) :=
  getElem?_handAll (self.handed io) self.threads n

theorem living_eventDone {io : WorkerEventIo} {n : Nat}
    : n ∈ (self.eventDone io loop).living ↔ n ∈ self.living := by
  rw [mem_living, mem_living]
  simp only [getElem?_eventDone, Option.map_eq_some_iff]
  constructor
  · rintro ⟨-, ⟨thread, found, rfl⟩, lives⟩
    exact ⟨thread, found, lives⟩
  · rintro ⟨thread, found, lives⟩
    exact ⟨_, ⟨thread, found, rfl⟩, lives⟩

/-- An event of the loop keeps the view right: requests go to the channels of the threads they
were counted for.
-/
theorem Manned.eventDone (manned : self.Manned) {io : WorkerEventIo}
    (taken : self.loop.step cfg crates bincode (.event (self.withBody io)) = some loop)
    (runs : loop.phase.running = true)
    : (self.eventDone io loop).Manned := by
  have still (view : loop.pool.alive = self.loop.pool.alive)
      (grows
        : ∀ n,
            forThread n loop.pool.outstanding
            = forThread n self.loop.pool.outstanding
              ++ (forThread n (self.handed io)).map Prod.fst)
      : (self.eventDone io loop).Manned := by
    refine ⟨(view ▸ manned.once :), ?_, ?_⟩
    · intro n
      rw [living_eventDone, ← manned.alive, ← view]
      rfl
    · intro n thread found lives
      rw [getElem?_eventDone] at found
      obtain ⟨earlier, there, rfl⟩ := Option.map_eq_some_iff.mp found
      rw [PythonThread.unanswered_handAll, ← manned.unanswered n earlier there lives]
      exact grows n
  by_cases sends : ∃ tk, self.loop.phase.nextEvent? = some (tk, .queuedRequests)
  · obtain ⟨tk, next⟩ := sends
    obtain ⟨threads, pool, sent, rfl⟩ := WorkerLoop.step_queued next taken runs
    have calls : self.withBody io = io := by rw [withBody, next]
    rw [calls] at sent
    obtain ⟨same, -⟩ := handed_sent next sent
    refine still (by rw [same]) fun n => ?_
    rw [same, forThread_append]
    congr 1
    simp [forThread, List.filter_map, Function.comp_def]
  · have keeps : ∀ tk, self.loop.phase.nextEvent? ≠ some (tk, .queuedRequests) :=
      fun tk next => sends ⟨tk, next⟩
    have view := (WorkerLoop.step_takes taken runs).sameView rfl fun _ _ => keeps
    refine still view.alive fun n => ?_
    rw [view.outstanding, (handed_none keeps).1]
    exact (List.append_nil _).symm

theorem Manned.around (manned : self.Manned) {io : WorkerEventIo}
    (taken : self.loop.step cfg crates bincode (.event (self.withBody io)) = some loop)
    (runs : loop.phase.running = true)
    : (self.around io loop).Manned :=
  (manned.eventDone taken runs).dieAll _

-----------------------------------------------------------------------------------------
-- What a thread does to it
-----------------------------------------------------------------------------------------

variable {n : Nat} {thread next : PythonThread} {act : ThreadAct} {lines : List ThreadLine}

/-- A thread that goes on had not ended, and has not. -/
theorem alive_acts (acts : thread.Acts parser cfg cfg.server act next lines)
    : thread.phase.alive = true ∧ next.phase.alive = true := by
  cases acts with
  | receive waits => exact ⟨waits ▸ rfl, rfl⟩
  | log runs | write runs | writelines runs =>
      suffices thread.phase.alive = true from ⟨this, this⟩
      cases stands : thread.phase with
      | ended => rw [stands] at runs; cases runs
      | _ => rfl
  | sendCodeStart stands | execute stands | sendResponse stands | stream stands
  | streamed stands =>
      exact ⟨stands ▸ rfl, rfl⟩

/-- What a step of a thread is: what it sends, and the thread afterwards. -/
theorem threadStep_steps (taken : self.threadStep parser cfg n act = some after)
    : ∃ thread next lines,
        self.threads[n]? = some thread
        ∧ thread.step parser cfg cfg.server self.loop.phase.running act = some (next, lines)
        ∧ after
          = { self.sends n thread.phase act with
              threads := self.threads.set n next
              lines :=
                self.lines
                ++ thread.phase.inHand?.toList.flatMap fun request =>
                  lines.map fun line => (request, line) } := by
  unfold threadStep at taken
  split at taken
  · cases taken
  · next thread found =>
      obtain ⟨⟨next, lines⟩, steps, rfl⟩ := Option.map_eq_some_iff.mp taken
      exact ⟨thread, next, lines, found, steps, rfl⟩

/-- A thread does not move the loop on. -/
theorem sends_phase (phase : ThreadPhase)
    : (self.sends n phase act).loop.phase = self.loop.phase := by
  unfold sends
  split
  · split <;> rfl
  · split <;> rfl
  · rfl
  · rfl
  · rfl

/-- What a thread sends to a loop that runs, one case for each act. -/
theorem Manned.sends (manned : self.Manned) (found : self.threads[n]? = some thread)
    (acts : thread.Acts parser cfg cfg.server act next lines)
    (runs : self.loop.phase.running = true)
    (sent : after.loop = (self.sends n thread.phase act).loop)
    (threads : after.threads = self.threads.set n next)
    : after.Manned := by
  obtain ⟨lives, still⟩ := alive_acts acts
  have quiet (same : after.loop.pool.outstanding = self.loop.pool.outstanding)
      (alive : after.loop.pool.alive = self.loop.pool.alive)
      (keeps : next.unanswered = thread.unanswered)
      : after.Manned := by
    refine manned.goesOn found lives still threads alive (fun _ _ => by rw [same]) ?_
    rw [same, keeps]
    exact id
  cases acts with
  | receive waits first =>
      have loop : after.loop = self.loop := by rw [sent, waits]; rfl
      refine quiet (by rw [loop]) (by rw [loop]) ?_
      simp only [PythonThread.unanswered, PythonThread.goesOn, waits, first]
      rfl
  | sendCodeStart stands =>
      simp only [WorkerProcess.sends, stands, runs, if_true] at sent
      refine quiet (by rw [sent]) (by rw [sent]) ?_
      simp only [PythonThread.unanswered, PythonThread.goesOn, stands]
      rfl
  | log | write | writelines =>
      have loop : after.loop = self.loop := by rw [sent]; rfl
      exact quiet (by rw [loop]) (by rw [loop]) rfl
  | execute stands =>
      have loop : after.loop = self.loop := by rw [sent, stands]; rfl
      refine quiet (by rw [loop]) (by rw [loop]) ?_
      simp only [PythonThread.unanswered, PythonThread.goesOn, stands]
      rfl
  | @sendResponse job resp sender stands =>
      simp only [WorkerProcess.sends, stands, runs, if_true] at sent
      refine manned.goesOn found lives still threads (by rw [sent]) ?_ ?_
      · intro m apart
        rw [sent]
        exact forThread_erase_ne apart.symm job.key
      · intro own
        rw [sent]
        refine (forThread_erase job.key).trans ?_
        rw [own]
        simp only [PythonThread.unanswered, PythonThread.goesOn, stands]
        exact List.erase_cons_head _ _
  | stream stands | streamed stands =>
      have loop : after.loop = self.loop := by rw [sent, stands]; rfl
      refine quiet (by rw [loop]) (by rw [loop]) ?_
      simp only [PythonThread.unanswered, PythonThread.goesOn, stands]
      rfl

/-- A step of a thread keeps the view right. -/
theorem Manned.threadStep (manned : self.Manned)
    (taken : self.threadStep parser cfg n act = some after)
    (runs : after.loop.phase.running = true)
    : after.Manned := by
  obtain ⟨thread, next, lines, found, steps, rfl⟩ := threadStep_steps taken
  dsimp only at runs
  rw [sends_phase] at runs
  rcases PythonThread.step_acts steps with ⟨acts, -⟩ | ⟨rfl, rfl, panics⟩
  · exact manned.sends found acts runs rfl rfl
  · obtain rfl := panics.resolve_right fun lost => by rw [lost.1] at runs; cases runs
    refine (manned.die n).same ?_ rfl rfl
    exact (modify_found _ found).symm

-----------------------------------------------------------------------------------------
-- Every run of a process is a run of the loop
-----------------------------------------------------------------------------------------

/-- The ways a process goes on. -/
inductive Goes (parser : StatusParser) (cfg : Config) (crates : Crates) (bincode : Bincode)
    (self : WorkerProcess)
    : ProcessInput → WorkerProcess → Prop
  | event {io : WorkerEventIo} {loop : WorkerLoop}
    (taken : self.loop.step cfg crates bincode (.event (self.withBody io)) = some loop)
    : Goes parser cfg crates bincode self (.loop (.event io)) (self.around io loop)
  | loop {input : WorkerInput} {loop : WorkerLoop} (own : input.ofThread = false)
    (other : ∀ io, input ≠ .event io)
    (taken : self.loop.step cfg crates bincode input = some loop)
    : Goes parser cfg crates bincode self (.loop input) { self with loop }
  | thread {n : Nat} {act : ThreadAct} {after : WorkerProcess}
    (taken : self.threadStep parser cfg n act = some after)
    : Goes parser cfg crates bincode self (.thread n act) after

theorem step_goes {input : ProcessInput}
    (taken : self.step parser cfg crates bincode input = some after)
    : self.Goes parser cfg crates bincode input after := by
  unfold step at taken
  split at taken
  · obtain ⟨loop, stepped, rfl⟩ := Option.map_eq_some_iff.mp taken
    exact .event stepped
  · next other =>
      split at taken
      · cases taken
      · next own =>
          obtain ⟨loop, stepped, rfl⟩ := Option.map_eq_some_iff.mp taken
          exact .loop (Bool.eq_false_iff.mpr own) other stepped
  · exact .thread taken

/-- Deaths do not move the loop on. -/
theorem dieAll_phase (dying : List Nat)
    : (dying.foldl die self).loop.phase = self.loop.phase := by
  induction dying generalizing self with
  | nil => rfl
  | cons n rest ih => exact ih

/-- Deaths are not noted. -/
theorem dieAll_trace (dying : List Nat)
    : (dying.foldl die self).loop.trace = self.loop.trace := by
  induction dying generalizing self with
  | nil => rfl
  | cons n rest ih => exact ih

/-- Every step keeps the view right while the loop runs. -/
theorem Goes.manned {input : ProcessInput} (goes : self.Goes parser cfg crates bincode input after)
    (earlier : self.loop.phase.running = true → self.Manned)
    (runs : after.loop.phase.running = true)
    : after.Manned := by
  cases goes with
  | event taken =>
      have still : (WorkerLoop.phase _).running = true := (dieAll_phase _ ▸ runs :)
      have ran := (WorkerLoop.step_takes taken still).runs
      exact (earlier ran).around taken still
  | @loop input loop own other taken =>
      have takes := WorkerLoop.step_takes taken runs
      have view := takes.sameView own fun io same => absurd same (other io)
      exact (earlier takes.runs).same rfl view.alive view.outstanding
  | thread taken =>
      obtain ⟨thread, next, lines, found, steps, same⟩ := threadStep_steps taken
      refine (earlier ?_).threadStep taken runs
      rw [same] at runs
      exact (sends_phase thread.phase ▸ runs :)

variable {promise : WorkerLoop → WorkerInput → Prop}

/-- Threads that die are steps of the environment of the loop, by induction on them. -/
theorem dieAll_reach
    (free
      : ∀ (loop : WorkerLoop) (n : Nat),
          loop.trace = self.loop.trace → promise loop (.threadDies n))
    (dying : List Nat)
    : Reach (WorkerLoop.step cfg crates bincode) promise self.loop
        (dying.foldl die self).loop := by
  induction dying generalizing self with
  | nil => exact .start
  | cons n rest ih =>
      have dies
          : self.loop.step cfg crates bincode (.threadDies n) = some (self.die n).loop :=
        WorkerLoop.step_threadDies n
      have later := @ih (self.die n) free
      exact (Reach.start.next (free _ n rfl) dies).trans later

/-- So is what a thread sends. -/
theorem sends_reach
    (free : ∀ (input : WorkerInput), input.ofThread = true → promise self.loop input)
    (manned : self.loop.phase.running = true → self.Manned) {n : Nat}
    {thread : PythonThread} (found : self.threads[n]? = some thread) (act : ThreadAct)
    : Reach (WorkerLoop.step cfg crates bincode) promise self.loop
        (self.sends n thread.phase act).loop := by
  unfold sends
  split
  · next now key req stands =>
      split
      · next runs =>
          have first : thread.unanswered = key :: thread.recv.map Prod.fst := by
            rw [PythonThread.unanswered, stands]
            rfl
          have handed := (manned runs).handed found (stands ▸ rfl) first
          have starts := @WorkerLoop.step_codeStart cfg crates bincode self.loop n key now
          rw [PythonPool.codeStart, if_pos handed] at starts
          exact Reach.start.next (free _ rfl) starts
      · exact .start
  · next job resp sender stands =>
      split
      · next runs =>
          have first : thread.unanswered = job.key :: thread.recv.map Prod.fst := by
            rw [PythonThread.unanswered, stands]
            rfl
          have handed := (manned runs).handed found (stands ▸ rfl) first
          have responds := @WorkerLoop.step_respond cfg crates bincode self.loop n job.key resp
          rw [PythonPool.respond, if_pos handed] at responds
          exact Reach.start.next (free _ rfl) responds
      · exact .start
  · exact .start
  · exact Reach.start.next (free _ rfl) (WorkerLoop.step_threadDies n)
  · exact .start

/-- A step of the process is a run of the loop: its own input, and then what its threads do,
which needs no promise but that of the environment.
-/
theorem Goes.reach {input : ProcessInput} (goes : self.Goes parser cfg crates bincode input after)
    (own
      : ∀ call : WorkerInput,
          input = .loop call → promise self.loop (self.loopInput call))
    (free
      : ∀ (loop : WorkerLoop) (call : WorkerInput),
          call.ofThread = true →
          loop.trace = self.loop.trace ∨ loop.trace = after.loop.trace →
          promise loop call)
    (manned : self.loop.phase.running = true → self.Manned)
    : Reach (WorkerLoop.step cfg crates bincode) promise self.loop after.loop := by
  cases goes with
  | @event io loop taken =>
      have same : ((self.dying io).foldl die (self.eventDone io loop)).loop.trace = loop.trace :=
        dieAll_trace _
      have dies :=
        @dieAll_reach cfg crates bincode (self.eventDone io loop) promise
          (fun other n kept => free other (.threadDies n) rfl (.inr (kept.trans same.symm)))
          (self.dying io)
      exact (Reach.start.next (own (.event io) rfl) taken).trans dies
  | @loop call loop _ other taken =>
      have is : self.loopInput call = call := loopInput_of_ne other
      exact Reach.start.next (is ▸ own call rfl) taken
  | thread taken =>
      obtain ⟨thread, next, lines, found, -, rfl⟩ := threadStep_steps taken
      exact sends_reach (fun call is => free _ call is (.inl rfl)) manned found _

/-- The loop of a process with its threads runs as it does with any, and its view of them is
right as long as it runs.
-/
theorem manned_reach
    (run
      : Reach (step parser cfg crates bincode) (fun _ _ => True) (.new cfg) self)
    : Reach (WorkerLoop.step cfg crates bincode) (fun _ _ => True) (.new cfg) self.loop
      ∧ (self.loop.phase.running = true → self.Manned) := by
  obtain ⟨loop, reached, rfl, manned⟩ :=
    run.simulates
      (fun process loop =>
        process.loop = loop ∧ (process.loop.phase.running = true → process.Manned))
      ⟨rfl, fun _ => manned_new cfg⟩
      (by
        rintro before label after - - - ⟨rfl, manned⟩ - taken
        have goes := step_goes taken
        have reached := goes.reach (fun _ _ => trivial) (fun _ _ _ _ => trivial) manned
        exact ⟨after.loop, reached, rfl, goes.manned manned⟩)
  exact ⟨reached, manned⟩

end WorkerProcess
end Casket
