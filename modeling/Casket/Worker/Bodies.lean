import Casket.Worker.Crew

/-! The channels of the bodies. Of each response that was sent, one thread at most is sending
the body; what it has sent are the chunks of the first turns of the loop that streams it, and
the channel is closed only when the loop has ended or its thread has.
-/

namespace Casket

open Lib

-----------------------------------------------------------------------------------------
-- Some turns of the streaming loop
-----------------------------------------------------------------------------------------

namespace BodySender

/-- Some turns of the streaming loop, with the chunks they sent. -/
inductive Turns : BodySender → List Bytes → BodySender → Prop
  | start {sender} : Turns sender [] sender
  | turn {sender chunks after} (earlier : Turns sender chunks after)
    (open_ : after.connected = true)
    : Turns sender (chunks ++ after.turn.1.toList) after.turn.2

/-- Turns after which the sender is gone are the whole loop. Witness: induction on the turns. -/
theorem Turns.streams {sender after : BodySender} {chunks rest : List Bytes}
    (turns : sender.Turns chunks after) (later : after.Streams rest)
    : sender.Streams (chunks ++ rest) := by
  induction turns generalizing rest with
  | start => exact later
  | turn _ open_ ih =>
      rw [List.append_assoc]
      exact ih (.turn open_ later)

theorem Turns.streamed {sender after : BodySender} {chunks : List Bytes}
    (turns : sender.Turns chunks after) (done : after.connected = false)
    : sender.Streams chunks := by
  have gone : after = .dropped := by
    cases after with
    | dropped => rfl
    | memory | pyIterator | spent => cases done
  rw [← List.append_nil chunks]
  exact turns.streams (gone ▸ .dropped)

end BodySender

namespace WorkerProcess

variable {parser : StatusParser} {cfg : Config} {crates : Crates} {bincode : Bincode}
  {self after : WorkerProcess} {loop : WorkerLoop}

-----------------------------------------------------------------------------------------
-- What a step does to the channels
-----------------------------------------------------------------------------------------

/-- Trying to receive keeps the sender as it is. -/
theorem afterTry_connected (body : Receiver)
    : body.afterTry.connected = body.connected := by
  unfold Receiver.afterTry Receiver.tryRecv
  split
  · next took =>
      split at took
      · cases took
        rfl
      · split at took <;> cases took
  · rfl

/-- An event takes from one channel at most. -/
theorem taken_cases (self : WorkerProcess)
    : self.taken = self.bodies
      ∨ ∃ key, self.taken = Function.update self.bodies key (self.bodies key).afterTry := by
  unfold taken
  split
  · next key _ =>
      split
      · split
        · exact .inr ⟨key, rfl⟩
        · exact .inl rfl
      · exact .inl rfl
  · exact .inl rfl

theorem taken_connected (self : WorkerProcess) (tk : Token)
    : (self.taken tk).connected = (self.bodies tk).connected := by
  rcases self.taken_cases with same | ⟨key, same⟩
  · rw [same]
  · rw [same, Function.update_apply]
    split
    · next here => rw [here, afterTry_connected]
    · rfl

/-- A thread is at the body of a job. -/
def Streaming (self : WorkerProcess) (n : Nat) (job : Job) (sender : BodySender) : Prop :=
  ∃ thread, self.threads[n]? = some thread ∧ thread.phase = .streaming job sender

theorem streams?_eq {n : Nat} {key : Token}
    : self.streams? n = some key ↔ ∃ job sender, self.Streaming n job sender ∧ job.key = key := by
  unfold streams?
  constructor
  · intro found
    split at found
    · next recv locals job sender handed seen there =>
        exact ⟨job, sender, ⟨_, there, rfl⟩, Option.some.inj found⟩
    · cases found
  · rintro ⟨job, sender, ⟨⟨recv, locals, phase, handed, seen⟩, there, rfl⟩, rfl⟩
    rw [there]

/-- The body of a thread that dies is cut, and its channel closed. -/
theorem bodies_die (n : Nat) (key : Token)
    : ((self.die n).bodies key).connected
      = ((self.bodies key).connected && self.streams? n != some key) := by
  cases found : self.streams? n with
  | none =>
      have none_ : (none != some key) = true := rfl
      rw [none_, Bool.and_true]
      simp only [die, found]
  | some other =>
      simp only [die, found, Function.update_apply]
      split
      · next here =>
          rw [here, bne_self_eq_false, Bool.and_false]
      · next apart =>
          have others : (some other != some key) = true := by simpa using Ne.symm apart
          rw [others, Bool.and_true]

/-- A thread that was replaced streams what the new one does. -/
theorem streaming_set {n m : Nat} {thread next : PythonThread} {job : Job}
    {sender : BodySender} (found : self.threads[n]? = some thread)
    (threads : after.threads = self.threads.set n next)
    (streams : after.Streaming m job sender)
    : m = n ∧ next.phase = .streaming job sender ∨ m ≠ n ∧ self.Streaming m job sender := by
  obtain ⟨other, there, stands⟩ := streams
  rw [threads] at there
  by_cases same : m = n
  · subst same
    rw [List.getElem?_set_self (List.getElem?_eq_some_iff.mp found).1] at there
    obtain rfl := Option.some.inj there
    exact .inl ⟨rfl, stands⟩
  · rw [List.getElem?_set_ne (Ne.symm same)] at there
    exact .inr ⟨same, other, there, stands⟩

-----------------------------------------------------------------------------------------
-- Every body has one sender
-----------------------------------------------------------------------------------------

/-- Each body that is sent comes from one thread, and each that ended was streamed to its end,
unless its thread was not.
-/
structure Bodied (parser : StatusParser) (cfg : Config) (process : WorkerProcess) : Prop where
  once : (process.answered.map Job.key).Nodup
  streaming
    : ∀ n job sender,
        process.Streaming n job sender →
        job ∈ process.answered
        ∧ (process.bodies job.key).connected = true
        ∧ sender.connected = true
        ∧ (job.executed parser cfg cfg.server).2.1.Turns (process.yielded job.key) sender
  alone
    : ∀ m n job other sender last,
        process.Streaming m job sender → process.Streaming n other last →
        job.key = other.key → m = n
  ended
    : ∀ job ∈ process.answered,
        ∃ sender,
          (job.executed parser cfg cfg.server).2.1.Turns (process.yielded job.key) sender
          ∧ ((process.bodies job.key).connected = false →
            job.key ∈ process.cut ∨ sender.connected = false)

/-- At first no thread is at a body. -/
theorem streaming_new {n : Nat} {job : Job} {sender : BodySender}
    : ¬ (new cfg).Streaming n job sender := by
  rintro ⟨thread, found, stands⟩
  rw [new] at found
  rw [(List.mem_replicate.mp (List.mem_of_getElem? found)).2] at stands
  cases stands

theorem bodied_new (parser : StatusParser) (cfg : Config) : (new cfg).Bodied parser cfg where
  once := List.nodup_nil
  streaming _ _ _ streams := absurd streams streaming_new
  alone _ _ _ _ _ _ streams := absurd streams streaming_new
  ended := nofun

/-- What sends nothing and closes no channel but those of bodies it cuts. -/
theorem Bodied.keeps (bodied : self.Bodied parser cfg)
    (fewer : ∀ n job sender, after.Streaming n job sender → self.Streaming n job sender)
    (answered : after.answered = self.answered) (yielded : after.yielded = self.yielded)
    (opened
      : ∀ n job sender,
          after.Streaming n job sender →
          (self.bodies job.key).connected = true →
          (after.bodies job.key).connected = true)
    (closed
      : ∀ key,
          (after.bodies key).connected = false →
          key ∈ after.cut ∨ (self.bodies key).connected = false)
    (cut : self.cut ⊆ after.cut)
    : after.Bodied parser cfg where
  once := answered ▸ bodied.once
  streaming n job sender streams := by
    obtain ⟨known, there, open_, turns⟩ := bodied.streaming n job sender (fewer _ _ _ streams)
    rw [answered, yielded]
    exact ⟨known, opened n job sender streams there, open_, turns⟩
  alone m n job other sender last one two :=
    bodied.alone m n job other sender last (fewer _ _ _ one) (fewer _ _ _ two)
  ended job known := by
    rw [answered] at known
    obtain ⟨sender, turns, ends⟩ := bodied.ended job known
    rw [yielded]
    refine ⟨sender, turns, fun gone => ?_⟩
    rcases closed job.key gone with is | was
    · exact .inl is
    · exact (ends was).imp_left fun member => cut member

/-- A thread dies. -/
theorem Bodied.die (bodied : self.Bodied parser cfg) (n : Nat)
    : (self.die n).Bodied parser cfg := by
  have fewer {m : Nat} {job : Job} {sender : BodySender}
      (streams : (self.die n).Streaming m job sender)
      : m ≠ n ∧ self.Streaming m job sender := by
    obtain ⟨thread, found, stands⟩ := streams
    rw [getElem?_die] at found
    obtain ⟨earlier, there, rfl⟩ := Option.map_eq_some_iff.mp found
    split at stands
    · cases stands
    · next apart => exact ⟨Ne.symm apart, earlier, there, stands⟩
  refine bodied.keeps (fun m job sender streams => (fewer streams).2) rfl rfl ?_ ?_ ?_
  · intro m job sender streams there
    obtain ⟨apart, before⟩ := fewer streams
    rw [bodies_die, there, Bool.true_and, bne_iff_ne]
    intro found
    obtain ⟨other, last, others, same⟩ := streams?_eq.mp found
    exact apart (bodied.alone m n job other sender last before others same.symm)
  · intro key gone
    rw [bodies_die, Bool.and_eq_false_iff, bne_eq_false_iff_eq] at gone
    refine gone.symm.imp_left fun found => ?_
    rw [WorkerProcess.die]
    dsimp only
    rw [found]
    exact List.mem_append_right _ List.mem_cons_self
  · exact List.subset_append_left _ _

theorem Bodied.dieAll (bodied : self.Bodied parser cfg) (dying : List Nat)
    : (dying.foldl WorkerProcess.die self).Bodied parser cfg := by
  induction dying generalizing self with
  | nil => exact bodied
  | cons n rest ih => exact ih (bodied.die n)

/-- An event takes chunks, and no sender. -/
theorem Bodied.eventDone (bodied : self.Bodied parser cfg) (io : WorkerEventIo)
    (loop : WorkerLoop)
    : (self.eventDone io loop).Bodied parser cfg := by
  refine bodied.keeps ?_ rfl rfl ?_ ?_ (List.Subset.refl _)
  · rintro n job sender ⟨thread, found, stands⟩
    rw [getElem?_eventDone] at found
    obtain ⟨earlier, there, rfl⟩ := Option.map_eq_some_iff.mp found
    exact ⟨earlier, there, stands⟩
  · intro n job sender _ there
    exact (self.taken_connected job.key).trans there
  · intro key gone
    exact .inr ((self.taken_connected key).symm.trans gone)

/-- A response is sent, and its body is about to be: no other request had its key. -/
theorem Bodied.responds (bodied : self.Bodied parser cfg) {n : Nat}
    {thread next : PythonThread} {job : Job} {sender : BodySender}
    (found : self.threads[n]? = some thread)
    (first : (job.executed parser cfg cfg.server).2.1 = sender)
    (fresh : job.key ∉ self.answered.map Job.key)
    (stands : next.phase = .streaming job sender) (open_ : sender.connected = true)
    (threads : after.threads = self.threads.set n next)
    (answered : after.answered = self.answered ++ [job])
    (bodies : after.bodies = Function.update self.bodies job.key ⟨[], true⟩)
    (yielded : after.yielded = Function.update self.yielded job.key [])
    (cut : after.cut = self.cut)
    : after.Bodied parser cfg := by
  have apart {other : Job} (known : other ∈ self.answered) : other.key ≠ job.key :=
    fun same => fresh (same ▸ List.mem_map_of_mem known)
  have own {m : Nat} {other : Job} {last : BodySender}
      (streams : after.Streaming m other last)
      : m = n ∧ other = job ∧ last = sender ∨ m ≠ n ∧ self.Streaming m other last := by
    refine (streaming_set found threads streams).imp_left fun here => ?_
    obtain ⟨same, phase⟩ := here
    obtain ⟨rfl, rfl⟩ := ThreadPhase.streaming.inj (phase.symm.trans stands)
    exact ⟨same, rfl, rfl⟩
  have starts : (job.executed parser cfg cfg.server).2.1.Turns [] sender := first ▸ .start
  constructor
  · rw [answered, List.map_append, List.map_cons, List.map_nil, List.nodup_append]
    refine ⟨bodied.once, List.nodup_singleton _, ?_⟩
    rintro key known _ is rfl
    exact fresh (List.mem_singleton.mp is ▸ known)
  · intro m other last streams
    rw [answered, bodies, yielded]
    rcases own streams with ⟨-, rfl, rfl⟩ | ⟨-, before⟩
    · rw [Function.update_self, Function.update_self]
      exact ⟨List.mem_append_right _ List.mem_cons_self, rfl, open_, starts⟩
    · obtain ⟨known, rest⟩ := bodied.streaming m other last before
      rw [Function.update_of_ne (apart known), Function.update_of_ne (apart known)]
      exact ⟨List.mem_append_left _ known, rest⟩
  · intro k m one two end_ last streams others same
    rcases own streams with ⟨rfl, rfl, -⟩ | ⟨-, before⟩
    · rcases own others with ⟨rfl, -, -⟩ | ⟨-, there⟩
      · rfl
      · exact absurd same.symm (apart (bodied.streaming m two last there).1)
    · rcases own others with ⟨rfl, rfl, -⟩ | ⟨-, there⟩
      · exact absurd same (apart (bodied.streaming k one end_ before).1)
      · exact bodied.alone k m one two end_ last before there same
  · intro other known
    rw [bodies, yielded, cut]
    rw [answered] at known
    rcases List.mem_append.mp known with before | new
    · rw [Function.update_of_ne (apart before), Function.update_of_ne (apart before)]
      exact bodied.ended other before
    · obtain rfl := List.mem_singleton.mp new
      rw [Function.update_self, Function.update_self]
      exact ⟨sender, starts, nofun⟩

/-- One turn of a body: the next chunk is sent, or the sender is dropped. -/
theorem Bodied.turns (bodied : self.Bodied parser cfg) {n : Nat}
    {thread next : PythonThread} {job : Job} {sender : BodySender}
    (found : self.threads[n]? = some thread) (stands : thread.phase = .streaming job sender)
    (goes
      : ∀ other last,
          next.phase = .streaming other last →
          other = job ∧ last = sender.turn.2 ∧ sender.turn.2.connected = true)
    (threads : after.threads = self.threads.set n next)
    (answered : after.answered = self.answered)
    (bodies
      : after.bodies
        = Function.update self.bodies job.key
            (Delivery.received sender (self.bodies job.key)))
    (yielded
      : after.yielded
        = Function.update self.yielded job.key
            (self.yielded job.key ++ sender.turn.1.toList))
    (cut : after.cut = self.cut)
    : after.Bodied parser cfg := by
  have here : self.Streaming n job sender := ⟨thread, found, stands⟩
  obtain ⟨known, there, open_, turns⟩ := bodied.streaming n job sender here
  have more := turns.turn open_
  have own {m : Nat} {other : Job} {last : BodySender}
      (streams : after.Streaming m other last)
      : (m = n ∧ other = job ∧ last = sender.turn.2 ∧ sender.turn.2.connected = true)
        ∨ (other.key ≠ job.key ∧ self.Streaming m other last) := by
    rcases streaming_set found threads streams with ⟨same, phase⟩ | ⟨apart, before⟩
    · exact .inl ⟨same, goes other last phase⟩
    · refine .inr ⟨fun same => apart ?_, before⟩
      exact bodied.alone m n other job last sender before here same
  constructor
  · exact answered ▸ bodied.once
  · intro m other last streams
    rw [answered, bodies, yielded]
    rcases own streams with ⟨-, rfl, rfl, still⟩ | ⟨apart, before⟩
    · rw [Function.update_self, Function.update_self]
      exact ⟨known, still, still, more⟩
    · rw [Function.update_of_ne apart, Function.update_of_ne apart]
      exact bodied.streaming m other last before
  · intro k m one two end_ last streams others same
    rcases own streams with ⟨rfl, rfl, -⟩ | ⟨apart, before⟩
    · rcases own others with ⟨rfl, -⟩ | ⟨other, -⟩
      · rfl
      · exact absurd same.symm other
    · rcases own others with ⟨rfl, rfl, -⟩ | ⟨-, there⟩
      · exact absurd same apart
      · exact bodied.alone k m one two end_ last before there same
  · intro other answers
    rw [answered] at answers
    rw [bodies, yielded, cut]
    by_cases same : other.key = job.key
    · obtain rfl := List.inj_on_of_nodup_map bodied.once answers known same
      rw [Function.update_self, Function.update_self]
      exact ⟨sender.turn.2, more, .inr⟩
    · rw [Function.update_of_ne same, Function.update_of_ne same]
      exact bodied.ended other answers

-----------------------------------------------------------------------------------------
-- No request is answered twice
-----------------------------------------------------------------------------------------

/-- Every request that was sent is answered, or is still to be. -/
def Replied (process : WorkerProcess) : Prop :=
  ((process.answered.map Job.key : List Token) : Multiset Token)
    + (process.loop.pool.outstanding.map Prod.snd : List Token)
  = total WorkerEffect.sends process.loop.trace

/-- What answers nothing keeps that, if it sends what it notes. -/
theorem Replied.grows (replied : self.Replied) {more : List (Nat × Token)}
    (answered : after.answered = self.answered)
    (outstanding
      : after.loop.pool.outstanding = self.loop.pool.outstanding ++ more)
    (sends
      : total WorkerEffect.sends after.loop.trace
        = total WorkerEffect.sends self.loop.trace + (more.map Prod.snd : List Token))
    : after.Replied := by
  rw [Replied, answered, outstanding, sends, ← replied, List.map_append, ← Multiset.coe_add]
  abel

theorem Replied.same (replied : self.Replied) (answered : after.answered = self.answered)
    (outstanding : after.loop.pool.outstanding = self.loop.pool.outstanding)
    (sends
      : total WorkerEffect.sends after.loop.trace
        = total WorkerEffect.sends self.loop.trace)
    : after.Replied :=
  replied.grows answered (outstanding.trans (List.append_nil _).symm)
    (sends.trans (add_zero _).symm)

theorem Replied.dieAll (replied : self.Replied) (dying : List Nat)
    : (dying.foldl WorkerProcess.die self).Replied := by
  induction dying generalizing self with
  | nil => exact replied
  | cons n rest ih => exact ih (replied.same rfl rfl rfl)

/-- The queue is sent, or no request is. -/
theorem Replied.eventDone (replied : self.Replied) {io : WorkerEventIo}
    (taken : self.loop.step cfg crates bincode (.event (self.withBody io)) = some loop)
    (runs : loop.phase.running = true)
    : (self.eventDone io loop).Replied := by
  by_cases sends : ∃ tk, self.loop.phase.nextEvent? = some (tk, .queuedRequests)
  · obtain ⟨tk, next⟩ := sends
    have calls : self.withBody io = io := by rw [withBody, next]
    rw [calls] at taken
    obtain ⟨threads, pool, sent, rfl⟩ := WorkerLoop.step_queued next taken runs
    rcases WorkerLoop.step_sent next taken with ⟨_, pool, also, trace⟩ | ⟨unsent, -⟩
    · obtain ⟨-, same⟩ := Prod.mk.inj (Except.ok.inj (also.symm.trans sent))
      obtain ⟨rfl, -⟩ := Prod.mk.inj same
      obtain ⟨grows, -⟩ := handed_sent next sent
      have outstanding := congrArg PythonPool.outstanding grows
      refine replied.grows rfl outstanding ?_
      dsimp only [WorkerProcess.eventDone]
      rw [trace, total_append, outstanding]
      dsimp only
      rw [List.drop_left, total_map WorkerEffect.sends _ id fun _ => rfl, List.map_id]
    · exact absurd sent (unsent _ _)
  · have keeps : ∀ tk, self.loop.phase.nextEvent? ≠ some (tk, .queuedRequests) :=
      fun tk next => sends ⟨tk, next⟩
    have view := (WorkerLoop.step_takes taken runs).sameView rfl fun _ _ => keeps
    exact replied.same rfl view.outstanding (WorkerLoop.step_unsent taken fun _ _ => keeps)

/-- Only a response answers a request. -/
theorem sends_answered {n : Nat} {act : ThreadAct} (phase : ThreadPhase)
    (other : act ≠ .sendResponse)
    : (self.sends n phase act).answered = self.answered
      ∧ (self.sends n phase act).loop.pool.outstanding = self.loop.pool.outstanding := by
  unfold sends
  split
  · split <;> exact ⟨rfl, rfl⟩
  · exact absurd rfl other
  · exact ⟨rfl, rfl⟩
  · exact ⟨rfl, rfl⟩
  · exact ⟨rfl, rfl⟩

/-- A thread that responds was to answer that request. -/
theorem Manned.responding (manned : self.Manned) {n : Nat} {thread : PythonThread} {job : Job}
    {resp : HttpResponse} {sender : BodySender} (found : self.threads[n]? = some thread)
    (stands : thread.phase = .responding job resp sender)
    : (n, job.key) ∈ self.loop.pool.outstanding := by
  have first : thread.unanswered = job.key :: thread.recv.map Prod.fst := by
    rw [PythonThread.unanswered, stands]
    rfl
  exact (manned.handed found (stands ▸ rfl) first).2

/-- A response moves its request from one side to the other. -/
theorem Replied.threadStep (replied : self.Replied) (manned : self.Manned) {n : Nat}
    {act : ThreadAct} (taken : self.threadStep parser cfg n act = some after)
    (runs : self.loop.phase.running = true)
    : after.Replied := by
  obtain ⟨thread, next, lines, found, steps, rfl⟩ := threadStep_steps taken
  have trace : (self.sends n thread.phase act).loop.trace = self.loop.trace :=
    sends_trace thread.phase
  by_cases responds : act = .sendResponse
  · subst responds
    rcases PythonThread.step_acts steps with ⟨acts, -⟩ | ⟨-, -, lost⟩
    · cases acts with
      | @sendResponse job resp sender stands =>
          have waits := manned.responding found stands
          have moves
              : (self.loop.pool.outstanding.map Prod.snd : Multiset Token)
                = job.key ::ₘ ((self.loop.pool.outstanding.erase (n, job.key)).map Prod.snd
                    : List Token) :=
            Multiset.coe_eq_coe.mpr ((List.perm_cons_erase waits).map Prod.snd)
          simp only [Replied, sends, stands, runs, if_true]
          rw [← replied, moves, List.map_append, ← Multiset.coe_add, List.map_cons, List.map_nil,
            Multiset.coe_singleton, ← Multiset.singleton_add]
          abel
    · rcases lost with is | ⟨gone, -⟩
      · cases is
      · rw [runs] at gone
        cases gone
  · obtain ⟨answered, outstanding⟩ :=
      self.sends_answered (n := n) thread.phase responds
    exact replied.same answered outstanding (congrArg _ trace)

/-- So it is in every run whose loop has not ended. -/
theorem replied_reach
    (run : Reach (step parser cfg crates bincode) (fun _ _ => True) (.new cfg) self)
    (runs : self.loop.phase.running = true)
    : self.Replied := by
  refine run.along (fun process => process.loop.phase.running = true → process.Replied)
    (fun _ => rfl) ?_ runs
  intro before label after earlier replied _ taken runs
  cases step_goes taken with
  | event stepped =>
      have still : (WorkerLoop.phase _).running = true := (dieAll_phase _ ▸ runs :)
      have ran := (WorkerLoop.step_takes stepped still).runs
      exact ((replied ran).eventDone stepped still).dieAll _
  | @loop input loop own other stepped =>
      have takes := WorkerLoop.step_takes stepped runs
      have view := takes.sameView own fun io same => absurd same (other io)
      refine (replied takes.runs).same rfl view.outstanding ?_
      exact WorkerLoop.step_unsent stepped fun io is => absurd is (other io)
  | thread stepped =>
      have ran : before.loop.phase.running = true := by
        obtain ⟨thread, next, lines, found, -, same⟩ := threadStep_steps stepped
        rw [same] at runs
        exact (sends_phase thread.phase ▸ runs :)
      exact (replied ran).threadStep ((manned_reach earlier).2 ran) stepped ran

/-- A request that is answered now was not before, if no two had one token. -/
theorem unanswered_fresh
    (run : Reach (step parser cfg crates bincode) (fun _ _ => True) (.new cfg) self)
    (runs : self.loop.phase.running = true)
    (distinct : ((total WorkerEffect.came self.loop.trace).map Prod.fst).Nodup) {n : Nat}
    {key : Token} (waits : (n, key) ∈ self.loop.pool.outstanding)
    : key ∉ self.answered.map Job.key := by
  have accounts := WorkerLoop.accounts_reach (manned_reach run).1 runs
  have replied : self.Replied := replied_reach run runs
  have once : (total WorkerEffect.sends self.loop.trace).Nodup := by
    have both := (Multiset.nodup_add.mp (accounts.balanced.once distinct)).1
    exact (Multiset.nodup_add.mp both).2.1
  rw [← replied] at once
  intro known
  exact Multiset.disjoint_left.mp (Multiset.nodup_add.mp once).2.2 (Multiset.mem_coe.mpr known)
    (Multiset.mem_coe.mpr (List.mem_map_of_mem waits))

-----------------------------------------------------------------------------------------
-- In every run
-----------------------------------------------------------------------------------------

/-- A thread that responds does so with what its application gave. -/
theorem Crewed.responding (crewed : self.Crewed parser cfg) {n : Nat} {thread : PythonThread}
    {job : Job} {resp : HttpResponse} {sender : BodySender}
    (found : self.threads[n]? = some thread)
    (stands : thread.phase = .responding job resp sender)
    : resp = job.response parser cfg cfg.server
      ∧ (job.executed parser cfg cfg.server).2.1 = sender
      ∧ sender.connected = true := by
  obtain ⟨jobs, blocks, locals, events, runs⟩ :=
    crewed.runs n thread found (stands ▸ rfl)
  have progress := runs.progress
  rw [stands] at progress
  cases progress with
  | @responding key req now wsgiCallable header sender left rest executes =>
      have same
          : (PythonThread.job key req now wsgiCallable).executed parser cfg cfg.server
            = (header, sender, left, thread.locals) :=
        executes
      rw [Job.response, same]
      exact ⟨rfl, rfl, executed_connected executes⟩

/-- What ends because the worker is gone sends nothing. -/
theorem sends_lost {n : Nat} {act : ThreadAct} {phase : ThreadPhase}
    (ended : self.loop.phase.running = false) (panics : act ≠ .panic)
    (still : ∀ job sender, phase ≠ .streaming job sender)
    : self.sends n phase act = self := by
  unfold sends
  split
  · rw [ended]
    rfl
  · rw [ended]
    rfl
  · exact absurd rfl (still _ _)
  · exact absurd rfl panics
  · rfl

/-- A step of a thread sends at most what is its own to send. -/
theorem Bodied.threadStep (bodied : self.Bodied parser cfg) (crewed : self.Crewed parser cfg)
    {n : Nat} {act : ThreadAct}
    (fresh
      : self.loop.phase.running = true →
        ∀ thread job resp sender,
          self.threads[n]? = some thread →
          thread.phase = .responding job resp sender →
          job.key ∉ self.answered.map Job.key)
    (taken : self.threadStep parser cfg n act = some after)
    : after.Bodied parser cfg := by
  obtain ⟨thread, next, lines, found, steps, rfl⟩ := threadStep_steps taken
  have quiet {process : WorkerProcess} (threads : process.threads = self.threads.set n next)
      (answered : process.answered = self.answered)
      (yielded : process.yielded = self.yielded) (bodies : process.bodies = self.bodies)
      (cut : process.cut = self.cut)
      (keeps
        : ∀ job sender,
            next.phase = .streaming job sender → thread.phase = .streaming job sender)
      : process.Bodied parser cfg := by
    refine bodied.keeps ?_ answered yielded ?_ ?_ ?_
    · intro m job sender streams
      rcases streaming_set found threads streams with ⟨rfl, stands⟩ | ⟨-, before⟩
      · exact ⟨thread, found, keeps job sender stands⟩
      · exact before
    · intro m job sender _ there
      rw [bodies]
      exact there
    · intro key gone
      rw [bodies] at gone
      exact .inr gone
    · rw [cut]
      exact List.Subset.refl _
  rcases PythonThread.step_acts steps with ⟨acts, there⟩ | ⟨rfl, rfl, ends⟩
  · cases acts with
    | receive | execute => exact quiet rfl rfl rfl rfl rfl (by intro _ _ stands; cases stands)
    | sendCodeStart stands =>
        simp only [sends, stands]
        split
        · exact quiet rfl rfl rfl rfl rfl (by intro _ _ stands; cases stands)
        · exact quiet rfl rfl rfl rfl rfl (by intro _ _ stands; cases stands)
    | log | write | writelines => exact quiet rfl rfl rfl rfl rfl fun _ _ stands => stands
    | @sendResponse job resp sender stands =>
        have runs := there rfl
        obtain ⟨-, first, open_⟩ := crewed.responding found stands
        simp only [sends, stands, runs, if_true]
        exact bodied.responds found first (fresh runs thread job resp sender found stands) rfl
          open_ rfl rfl rfl rfl rfl
    | @stream job sender stands goes =>
        simp only [sends, stands]
        refine bodied.turns found stands ?_ rfl rfl rfl rfl rfl
        intro other last phase
        obtain ⟨rfl, rfl⟩ := ThreadPhase.streaming.inj phase
        exact ⟨rfl, rfl, goes⟩
    | @streamed job sender stands done =>
        simp only [sends, stands]
        refine bodied.turns found stands ?_ rfl rfl rfl rfl rfl
        intro other last phase
        cases phase
  · by_cases panics : act = .panic
    · subst panics
      have died := (modify_found PythonThread.ends found).symm
      refine (bodied.die n).keeps ?_ rfl rfl ?_ ?_ (List.Subset.refl _)
      · rintro m job sender ⟨other, there, stands⟩
        dsimp only at there
        rw [died] at there
        exact ⟨other, there, stands⟩
      · exact fun _ _ _ _ there => there
      · exact fun _ gone => .inr gone
    · obtain ⟨gone, still⟩ := ends.resolve_left panics
      rw [sends_lost gone panics still]
      exact quiet rfl rfl rfl rfl rfl (by intro _ _ stands; cases stands)

/-- The trace of a process only grows. -/
theorem Goes.came {input : ProcessInput}
    (goes : self.Goes parser cfg crates bincode input after)
    (manned : self.loop.phase.running = true → self.Manned)
    : total WorkerEffect.came self.loop.trace ≤ total WorkerEffect.came after.loop.trace := by
  have run
      : Reach (WorkerLoop.step cfg crates bincode) (fun _ _ => True) self.loop after.loop :=
    goes.reach (fun _ _ => trivial) (fun _ _ _ _ => trivial) manned
  refine run.invariant
    (fun loop => total WorkerEffect.came self.loop.trace ≤ total WorkerEffect.came loop.trace)
    le_rfl ?_
  intro before input after earlier _ taken
  obtain ⟨effects, trace, -⟩ := WorkerLoop.step_notes taken
  rw [trace, total_append]
  exact earlier.trans (Multiset.le_add_right _ _)

/-- In every run of a process to which no token came twice, each body has one sender. -/
theorem bodied_reach
    (run : Reach (step parser cfg crates bincode) (fun _ _ => True) (.new cfg) self)
    (distinct : ((total WorkerEffect.came self.loop.trace).map Prod.fst).Nodup)
    : self.Bodied parser cfg := by
  refine run.along
    (fun process =>
      ((total WorkerEffect.came process.loop.trace).map Prod.fst).Nodup →
      process.Bodied parser cfg)
    (fun _ => bodied_new parser cfg) ?_ distinct
  intro before label after earlier bodied _ taken distinct
  have goes := step_goes taken
  have manned := (manned_reach earlier).2
  have once := Multiset.nodup_of_le (Multiset.map_le_map (goes.came manned)) distinct
  have bodied := bodied once
  cases goes with
  | @event io loop _ => exact (bodied.eventDone io loop).dieAll _
  | loop =>
      exact bodied.keeps (fun _ _ _ streams => streams) rfl rfl (fun _ _ _ _ there => there)
        (fun _ gone => .inr gone) (List.Subset.refl _)
  | thread stepped =>
      refine bodied.threadStep (crewed_reach earlier) ?_ stepped
      intro runs thread job resp sender found stands
      exact unanswered_fresh earlier runs once ((manned runs).responding found stands)

end WorkerProcess
end Casket
