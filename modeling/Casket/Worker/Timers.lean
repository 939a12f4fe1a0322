import Casket.Lib.Heap
import Casket.Worker.Polling

/-! The timer queue over any history of insertions and ticks. The heap orders its entries by
their deadlines alone, so which of two with one deadline comes first is left open; the clock
may step back between ticks.
-/

namespace Casket

-----------------------------------------------------------------------------------------
-- A tick up to its poll
-----------------------------------------------------------------------------------------

/-- `Ord for TimerEntry`. -/
def TimerEntry.cmp (self other : TimerEntry) : Ordering :=
  compare self.timeout other.timeout

/-- The order of `cmp::Reverse<TimerEntry>`. -/
def TimerEntry.cmpReverse (self other : TimerEntry) : Ordering := other.cmp self

/-- `SystemTime::duration_since`: `none` if the other time is later. -/
def SystemTime.durationSince (self earlier : SystemTime) : Option Duration :=
  if self < earlier then none else some (self - earlier).toNat

namespace Poller

/-- `timerq.peek()`: one of the greatest entries, which is also the one popped next. -/
def Peek (self : Poller) : Option TimerEntry → Prop
  | none => self.timerq = []
  | some entry =>
      entry ∈ self.timerq ∧ ∀ other ∈ self.timerq, other.cmpReverse entry ≠ .gt

/-- The timeout of the poll, from what is found at the front of the heap. -/
def pollTimeout (now : SystemTime) (timeout : Option Duration) (peeked : Option TimerEntry)
    : Option Duration :=
  match timeout with
  | some t => some t
  | none =>
      peeked.map fun e =>
        match e.timeout.durationSince now with
        | none => 20 * 10 ^ 6
        | some d => d

/-- The loop that places timed out events in the vector. -/
inductive TimerLoop (now : SystemTime)
    : Poller → List (Token × Event) → Poller → List (Token × Event) → Prop
  | empty {poll events} (peeked : poll.Peek none) : TimerLoop now poll events poll events
  | later {poll events entry} (peeked : poll.Peek (some entry))
    (late : entry.timeout > now)
    : TimerLoop now poll events poll events
  | pop {poll events after pushed entry} (peeked : poll.Peek (some entry))
    (due : ¬ entry.timeout > now)
    (more
      : TimerLoop now { poll with timerq := poll.timerq.erase entry }
          (events ++ [(entry.token, entry.event)]) after pushed)
    : TimerLoop now poll events after pushed

/-- `tick` up to its poll: the timeout is computed before timers are popped. -/
def BeforePoll (self : Poller) (events : List (Token × Event)) (now : SystemTime)
    (timeout wait : Option Duration) (after : Poller) (pushed : List (Token × Event))
    : Prop :=
  (∃ peeked, self.Peek peeked ∧ wait = pollTimeout now timeout peeked)
  ∧ TimerLoop now self events after pushed

/-- `tick` from its poll on. -/
def afterPoll (self : Poller) (events : List (Token × Event))
    (polled : Except IoError (List MioEvent))
    : Except Panic (Poller × Except RuntimeError (List (Token × Event))) :=
  match polled with
  | .error e =>
      if e.interrupted then
        .ok (self, .ok (events ++ [(0, .ctrlC)]))
      else
        .ok (self, .error (.io "worker failed to poll" e))
  | .ok mioEvents =>
      match self.takeAllRegistered events mioEvents with
      | .error panic => .error panic
      | .ok (self, events) => .ok (self, .ok events)

-----------------------------------------------------------------------------------------
-- The loop drains the queue
-----------------------------------------------------------------------------------------

/-- The reversed order puts the earliest deadline in front. -/
theorem peek_iff {self : Poller} {peeked : Option TimerEntry}
    : self.Peek peeked ↔ Lib.Peeks TimerEntry.timeout self.timerq peeked := by
  cases peeked with
  | none => rfl
  | some entry =>
      simp only [Peek, Lib.Peeks, Lib.Earliest, TimerEntry.cmpReverse, TimerEntry.cmp, ne_eq,
        compare_gt_iff_gt, not_lt]

/-- The loop pushes what is drained from the queue. Witness: induction on its turns, and on
the entries drained.
-/
theorem timerLoop_iff {now : SystemTime} {self after : Poller}
    {events pushed : List (Token × Event)}
    : TimerLoop now self events after pushed
      ↔ ∃ popped rest,
          Lib.Drains TimerEntry.timeout now self.timerq popped rest
          ∧ pushed = events ++ popped.map (fun entry => (entry.token, entry.event))
          ∧ after = { self with timerq := rest } := by
  constructor
  · intro loop
    induction loop with
    | @empty poll events peeked =>
        have none_ : poll.timerq = [] := peeked
        refine ⟨[], [], ?_, by simp, by rw [← none_]⟩
        rw [none_]
        exact .empty
    | later peeked late =>
        exact ⟨[], _, .stop (peek_iff.mp peeked) late, by simp, rfl⟩
    | pop peeked due _ ih =>
        obtain ⟨popped, rest, drains, rfl, rfl⟩ := ih
        exact ⟨_ :: popped, rest, .pop (peek_iff.mp peeked) (not_lt.mp due) drains, by simp,
          rfl⟩
  · rintro ⟨popped, rest, drains, rfl, rfl⟩
    obtain ⟨heap, same⟩ : ∃ heap, heap = self.timerq := ⟨_, rfl⟩
    rw [← same] at drains
    induction drains generalizing self events with
    | empty =>
        rw [List.map_nil, List.append_nil, same]
        exact .empty same.symm
    | stop first past =>
        rw [List.map_nil, List.append_nil, same]
        exact .later (peek_iff.mpr (same ▸ first)) past
    | @pop heap entry popped rest first due _ ih =>
        refine .pop (peek_iff.mpr (same ▸ first)) (not_lt.mpr due) ?_
        have more := @ih { self with timerq := self.timerq.erase entry }
          (events ++ [(entry.token, entry.event)]) (same ▸ rfl)
        simpa using more

/-- What a tick does up to its poll. -/
theorem beforePoll_iff {self after : Poller} {events pushed : List (Token × Event)}
    {now : SystemTime} {timeout wait : Option Duration}
    : self.BeforePoll events now timeout wait after pushed
      ↔ (∃ peeked, self.Peek peeked ∧ wait = pollTimeout now timeout peeked)
        ∧ ∃ popped,
            self.Pops now popped
            ∧ pushed = events ++ popped.map (fun entry => (entry.token, entry.event))
            ∧ after = { self with timerq := self.timerq.filter (now < ·.timeout) } := by
  refine and_congr_right fun _ => timerLoop_iff.trans ?_
  constructor
  · rintro ⟨popped, rest, drains, pushes, rfl⟩
    obtain ⟨given, sorted, rfl⟩ := drains.spec
    exact ⟨popped, ⟨given, sorted⟩, pushes, rfl⟩
  · rintro ⟨popped, ⟨given, sorted⟩, pushes, rfl⟩
    exact ⟨popped, _, .of_sorted given sorted, pushes, rfl⟩

/-- A tick is one of its loop and its poll: the entries it is given are those its loop
pops.
-/
theorem tick_iff (self : Poller) (events : List (Token × Event)) (now : SystemTime)
    (polled : Except IoError (List MioEvent))
    (result : Except Panic (Poller × Except RuntimeError (List (Token × Event))))
    : (∃ popped, self.Pops now popped ∧ self.tick events now popped polled = result)
      ↔ ∃ after pushed,
          TimerLoop now self events after pushed
          ∧ after.afterPoll pushed polled = result := by
  constructor
  · rintro ⟨popped, ⟨given, sorted⟩, rfl⟩
    exact ⟨_, _, timerLoop_iff.mpr ⟨popped, _, .of_sorted given sorted, rfl, rfl⟩, rfl⟩
  · rintro ⟨after, pushed, loop, rfl⟩
    obtain ⟨popped, rest, drains, rfl, rfl⟩ := timerLoop_iff.mp loop
    obtain ⟨given, sorted, rfl⟩ := drains.spec
    exact ⟨popped, ⟨given, sorted⟩, rfl⟩

/-- Every tick gets to its poll. -/
theorem exists_beforePoll (self : Poller) (events : List (Token × Event)) (now : SystemTime)
    (timeout : Option Duration)
    : ∃ wait after pushed, self.BeforePoll events now timeout wait after pushed := by
  obtain ⟨peeked, front⟩ := Lib.exists_peeks TimerEntry.timeout self.timerq
  obtain ⟨popped, drains⟩ := Lib.exists_drains TimerEntry.timeout now self.timerq
  exact ⟨_, _, _, ⟨peeked, peek_iff.mpr front, rfl⟩,
    timerLoop_iff.mpr ⟨popped, _, drains, rfl, rfl⟩⟩

end Poller

-----------------------------------------------------------------------------------------
-- Histories
-----------------------------------------------------------------------------------------

/-- What happens to a timer queue. A tick is noted with what it pushed for timers. -/
inductive TimerOp where
  | timerEvent (token : Token) (timeout : SystemTime) (event : Event)
  | tick (now : SystemTime) (pushed : List (Token × Event))

/-- A poller after some insertions and ticks, with other calls in between that leave the
timers alone.
-/
inductive TimerHistory : List TimerOp → Poller → Prop
  | new : TimerHistory [] .new
  | timerEvent {ops poll} (earlier : TimerHistory ops poll) (token : Token)
    (timeout : SystemTime) (event : Event)
    : TimerHistory (ops ++ [.timerEvent token timeout event])
        (poll.timerEvent token timeout event)
  | tick {ops poll events now timeout wait middle pushed polled after result}
    (earlier : TimerHistory ops poll)
    (before : poll.BeforePoll events now timeout wait middle (events ++ pushed))
    (polls : middle.afterPoll (events ++ pushed) polled = .ok (after, result))
    : TimerHistory (ops ++ [.tick now pushed]) after
  | other {ops poll after} (earlier : TimerHistory ops poll)
    (same : after.timerq = poll.timerq)
    : TimerHistory ops after

/-- A tick at or past a deadline. -/
def TimerOp.reaches (timeout : SystemTime) : TimerOp → Bool
  | .timerEvent .. => false
  | .tick now _ => timeout ≤ now

def TimerOp.inserted : TimerOp → List TimerEntry
  | .timerEvent token timeout event => [⟨token, timeout, event⟩]
  | .tick .. => []

def TimerOp.pushed : TimerOp → List (Token × Event)
  | .timerEvent .. => []
  | .tick _ pushed => pushed

/-- The timers whose deadline no later tick has reached. -/
def unreachedTimers : List TimerOp → List TimerEntry
  | [] => []
  | .timerEvent token timeout event :: later =>
      if later.any (TimerOp.reaches timeout) then
        unreachedTimers later
      else
        ⟨token, timeout, event⟩ :: unreachedTimers later
  | .tick .. :: later => unreachedTimers later

/-- The events of some timers. -/
def timerEvents (entries : List TimerEntry) : List (Token × Event) :=
  entries.map fun entry => (entry.token, entry.event)

/-- A new timer is not reached yet, by induction on what came before. -/
theorem unreachedTimers_timerEvent (ops : List TimerOp) (token : Token)
    (timeout : SystemTime) (event : Event)
    : unreachedTimers (ops ++ [.timerEvent token timeout event])
      = unreachedTimers ops ++ [⟨token, timeout, event⟩] := by
  induction ops with
  | nil => rfl
  | cons op later ih =>
      cases op with
      | tick => exact ih
      | timerEvent =>
          simp only [List.cons_append, unreachedTimers, ih, List.any_append, List.any_cons,
            TimerOp.reaches, List.any_nil, Bool.or_false]
          split <;> rfl

/-- A tick leaves the timers that it does not reach, by induction on what came before. -/
theorem unreachedTimers_tick (ops : List TimerOp) (now : SystemTime)
    (pushed : List (Token × Event))
    : unreachedTimers (ops ++ [.tick now pushed])
      = (unreachedTimers ops).filter (now < ·.timeout) := by
  induction ops with
  | nil => rfl
  | cons op later ih =>
      cases op with
      | tick => exact ih
      | timerEvent token timeout event =>
          simp only [List.cons_append, unreachedTimers, ih, List.any_append, List.any_cons,
            TimerOp.reaches, List.any_nil, Bool.or_false]
          by_cases before : later.any (TimerOp.reaches timeout)
          · simp [before]
          · by_cases now_ : timeout ≤ now
            · simp [before, now_]
            · simp [before, now_, not_le.mp now_]

theorem Poller.afterPoll_timerq {self after : Poller} {events : List (Token × Event)}
    {polled : Except IoError (List MioEvent)}
    {result : Except RuntimeError (List (Token × Event))}
    (polls : self.afterPoll events polled = .ok (after, result))
    : after.timerq = self.timerq := by
  unfold afterPoll at polls
  split at polls
  · split at polls <;>
      exact congrArg Poller.timerq (congrArg Prod.fst (Except.ok.inj polls)).symm
  · split at polls
    · cases polls
    · next taken =>
        obtain ⟨reads, writes, -, draws⟩ := takeAllRegistered_draws taken
        exact (congrArg (·.1.timerq) (Except.ok.inj polls)).symm.trans draws.timerq

/-- The queue has the timers that were not reached. Witness: induction on the history. -/
theorem TimerHistory.timerq {ops : List TimerOp} {poll : Poller}
    (history : TimerHistory ops poll)
    : poll.timerq = unreachedTimers ops := by
  induction history with
  | new => rfl
  | timerEvent _ token timeout event ih =>
      rw [unreachedTimers_timerEvent, ← ih, Poller.timerEvent]
  | tick _ before polls ih =>
      obtain ⟨-, popped, -, -, rfl⟩ := Poller.beforePoll_iff.mp before
      rw [Poller.afterPoll_timerq polls, unreachedTimers_tick, ← ih]
  | other _ same ih => rw [same, ih]

/-- Every timer that was inserted was pushed once, or is in the queue. Witness: induction on
the history, where a tick parts the queue into what it pops and what it leaves.
-/
theorem TimerHistory.conserves {ops : List TimerOp} {poll : Poller}
    (history : TimerHistory ops poll)
    : (ops.flatMap TimerOp.pushed ++ timerEvents (unreachedTimers ops)).Perm
        (timerEvents (ops.flatMap TimerOp.inserted)) := by
  induction history with
  | new => exact .nil
  | timerEvent _ token timeout event ih =>
      rw [unreachedTimers_timerEvent]
      simp only [timerEvents, List.flatMap_append, List.map_append, List.flatMap_cons,
        TimerOp.pushed, TimerOp.inserted, List.flatMap_nil, List.append_nil] at ih ⊢
      rw [← List.append_assoc]
      exact ih.append_right _
  | @tick ops poll events now _ _ _ pushed _ _ _ earlier before polls ih =>
      obtain ⟨-, popped, ⟨given, -⟩, pushes, -⟩ := Poller.beforePoll_iff.mp before
      have parts := List.filter_append_perm (·.timeout ≤ now) (unreachedTimers ops)
      have left
          : (unreachedTimers ops).filter (now < ·.timeout)
            = (unreachedTimers ops).filter fun entry => !decide (entry.timeout ≤ now) :=
        List.filter_congr fun entry _ => by rw [← decide_not, decide_eq_decide, not_le]
      rw [Poller.due, earlier.timerq] at given
      obtain rfl : pushed = timerEvents popped := List.append_cancel_left pushes
      rw [unreachedTimers_tick]
      simp only [List.flatMap_append, List.flatMap_cons, TimerOp.pushed, TimerOp.inserted,
        List.flatMap_nil, List.append_nil, List.append_assoc]
      refine (List.Perm.append_left _ ?_).trans ih
      rw [timerEvents, timerEvents, ← List.map_append, left]
      exact ((given.append_right _).trans parts).map _
  | other _ _ ih => exact ih

-----------------------------------------------------------------------------------------
-- Every timer once, and the time a poll may take
-----------------------------------------------------------------------------------------

/-- What a tick does to timers after a history: it pushes those that no earlier tick has
reached and this one does, in the order of their deadlines.
-/
def PushesDue (ops : List TimerOp) (now : SystemTime)
    (events pushed : List (Token × Event))
    : Prop :=
  ∃ due : List TimerEntry,
    due.Perm ((unreachedTimers ops).filter (·.timeout ≤ now))
    ∧ due.Pairwise (·.timeout ≤ ·.timeout)
    ∧ pushed = events ++ timerEvents due

/-- A poll without a timeout of its own waits for no longer than until the earliest
deadline, and for 20 ms at most if that is past.
-/
def WaitsFor (timerq : List TimerEntry) (now : SystemTime) (wait : Option Duration) : Prop :=
  (wait = none ↔ timerq = [])
  ∧ ∀ d, wait = some d → ∀ entry, Lib.Earliest TimerEntry.timeout timerq entry →
      d ≤ if entry.timeout < now then 20 * 10 ^ 6 else (entry.timeout - now).toNat

theorem Poller.waitsFor {self : Poller} {now : SystemTime} {peeked : Option TimerEntry}
    (front : self.Peek peeked)
    : WaitsFor self.timerq now (pollTimeout now none peeked) := by
  cases peeked with
  | none =>
      have empty : self.timerq = [] := front
      exact ⟨⟨fun _ => empty, fun _ => rfl⟩, fun d waits => nomatch waits⟩
  | some first =>
      obtain ⟨member, least⟩ : Lib.Earliest TimerEntry.timeout self.timerq first :=
        peek_iff.mp front
      refine ⟨⟨nofun, fun empty => ?_⟩, ?_⟩
      · rw [empty] at member
        cases member
      · rintro d waits entry ⟨inside, least'⟩
        have same : first.timeout = entry.timeout :=
          le_antisymm (least entry inside) (least' first member)
        simp only [pollTimeout, Option.map_some, Option.some.injEq,
          SystemTime.durationSince, same] at waits
        subst waits
        by_cases past : entry.timeout < now
        · simp [past]
        · simp [past]

/-- Every timer that was inserted has been pushed once or waits; each tick pushes the timers
it is the first to reach, in order; and no poll waits past the earliest deadline.
-/
theorem timers_pushed_once {ops : List TimerOp} {poll : Poller}
    (history : TimerHistory ops poll)
    : (ops.flatMap TimerOp.pushed ++ timerEvents (unreachedTimers ops)).Perm
          (timerEvents (ops.flatMap TimerOp.inserted))
      ∧ ∀ events now timeout,
          (∃ wait after pushed, poll.BeforePoll events now timeout wait after pushed)
          ∧ ∀ wait after pushed,
              poll.BeforePoll events now timeout wait after pushed
              → PushesDue ops now events pushed
                ∧ (timeout = none → WaitsFor poll.timerq now wait) := by
  refine ⟨history.conserves, fun events now timeout =>
    ⟨poll.exists_beforePoll events now timeout, fun wait after pushed before => ?_⟩⟩
  obtain ⟨⟨peeked, front, rfl⟩, popped, ⟨given, sorted⟩, rfl, -⟩ :=
    Poller.beforePoll_iff.mp before
  refine ⟨⟨popped, ?_, sorted, rfl⟩, ?_⟩
  · rwa [Poller.due, history.timerq] at given
  · rintro rfl
    exact Poller.waitsFor front

/-- Of two timers the one at 10 was pushed by a tick at 20, and a tick at 5 that comes after
it, when the clock has stepped back, pushes nothing.
-/
theorem timers_pushed_once_back
    : let ops : List TimerOp :=
        [.timerEvent 2 30 .requestReadTimeout, .timerEvent 3 10 .pythonCodeTimeout,
          .tick 20 [(3, .pythonCodeTimeout)]]
      ∃ poll wait after pushed,
        TimerHistory ops poll
        ∧ poll.BeforePoll [] 5 none wait after pushed
        ∧ PushesDue ops 5 [] pushed
        ∧ WaitsFor poll.timerq 5 wait := by
  intro ops
  let first := Poller.new.timerEvent 2 30 .requestReadTimeout
  let second := first.timerEvent 3 10 .pythonCodeTimeout
  have inserted : TimerHistory
      [.timerEvent 2 30 .requestReadTimeout, .timerEvent 3 10 .pythonCodeTimeout] second :=
    (TimerHistory.new.timerEvent ..).timerEvent ..
  have front : second.Peek (some ⟨3, 10, .pythonCodeTimeout⟩) := ⟨by decide, by decide⟩
  have before : second.BeforePoll [] 20 none (some (20 * 10 ^ 6)) first
      [(3, .pythonCodeTimeout)] :=
    Poller.beforePoll_iff.mpr
      ⟨⟨_, front, by decide⟩, [⟨3, 10, .pythonCodeTimeout⟩], by decide, rfl, rfl⟩
  have history : TimerHistory ops first :=
    inserted.tick before (rfl : first.afterPoll _ (.ok []) = .ok (first, .ok _))
  obtain ⟨-, ticks⟩ := timers_pushed_once history
  obtain ⟨⟨wait, after, pushed, next⟩, each⟩ := ticks [] 5 none
  obtain ⟨due, waits⟩ := each wait after pushed next
  exact ⟨first, wait, after, pushed, history, next, due, waits rfl⟩

end Casket
