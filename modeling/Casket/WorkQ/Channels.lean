import Casket.WorkQ.RoundRobin
import Mathlib.Logic.Function.Basic

/-! The work queue with its receivers and the values they were sent.
Receivers die at any moment; a send meets each of them at most once.
-/

namespace Casket

open scoped List

/-- A queue of values, with its receivers named in the order of their creation. -/
structure Channels (T : Type) where
  queue : WorkQ
  created : Nat
  alive : List Nat
  sent : Nat → List T

namespace Channels

variable {T : Type}

def new : Channels T where
  queue := .new
  created := 0
  alive := []
  sent := fun _ => []

def newRecv (self : Channels T) : Channels T where
  queue := self.queue.newRecv self.created
  created := self.created + 1
  alive := self.alive ++ [self.created]
  sent := self.sent

/-- Receivers are dropped. -/
def drop (self : Channels T) (dying : List Nat) : Channels T :=
  { self with alive := self.alive.filter (· ∉ dying) }

/-- `mpsc::Sender::send`, which gives the value back when the receiver is gone. -/
def channelSend (self : Channels T) (receiver : Nat) (t : T) : Except T (Channels T) :=
  if receiver ∈ self.alive then
    .ok { self with
      sent := Function.update self.sent receiver (self.sent receiver ++ [t]) }
  else
    .error t

/-- The loop of `send`. The receiver that takes the value is named in the result. -/
def sendLoop : Nat → Channels T → T → Except Panic (Except T Nat × Channels T)
  | 0, self, t => .ok (.error t, self)
  | turns + 1, self, t =>
      if self.queue.senders.isEmpty then
        .ok (.error t, self)
      else
        let pos :=
          if self.queue.pos = self.queue.senders.length then 0 else self.queue.pos
        match self.queue.senders[pos]? with
        | none => .error .workqIndex
        | some receiver =>
            match self.channelSend receiver t with
            | .ok after => .ok (.ok receiver, { after with queue := { self.queue with pos } })
            | .error t =>
                let senders := self.queue.senders.eraseIdx pos
                sendLoop turns { self with queue := ⟨pos, senders⟩ } t

/-- `send` after its cursor has moved, with a number of turns for its loop. -/
def sendWithin (turns : Nat) (self : Channels T) (t : T)
    : Except Panic (Except T Nat × Channels T) :=
  sendLoop turns { self with queue := { self.queue with pos := self.queue.pos + 1 } } t

/-- `send`, while some receivers die before the loop comes to them. A loop meets each
receiver once, so it finds them gone from its start.
-/
def send (self : Channels T) (t : T) (dying : List Nat)
    : Except Panic (Except T Nat × Channels T) :=
  sendWithin (self.queue.senders.length + 1) (self.drop dying) t

/-- What happens to a queue. -/
inductive Op (T : Type)
  | newRecv
  | die (dying : List Nat)
  | send (t : T) (dying : List Nat)

def Op.isNewRecv : Op T → Bool
  | .newRecv => true
  | _ => false

def Op.isSend : Op T → Bool
  | .send .. => true
  | _ => false

/-- One operation, unless it panics. -/
def step (self : Channels T) : Op T → Option (Channels T)
  | .newRecv => some self.newRecv
  | .die dying => some (self.drop dying)
  | .send t dying => (self.send t dying).toOption.map Prod.snd

-----------------------------------------------------------------------------------------
-- Sends by the queue alone
-----------------------------------------------------------------------------------------

/-- How a send that found this receiver, or none, ends. -/
def deliver (self : Channels T) (t : T) : Option Nat → WorkQ → Except T Nat × Channels T
  | none, queue => (.error t, { self with queue })
  | some receiver, queue =>
      (.ok receiver,
        { self with
          queue
          sent := Function.update self.sent receiver (self.sent receiver ++ [t]) })

/-- The queue alone decides who gets a value, and the value comes back unchanged when no
receiver does. Witness: induction on the turns.
-/
theorem sendLoop_eq (turns : Nat) (self : Channels T) (t : T)
    : sendLoop turns self t =
        (WorkQ.sendLoop (fun receiver => decide (receiver ∈ self.alive)) turns
            self.queue).map
          fun outcome => self.deliver t outcome.1 outcome.2 := by
  induction turns generalizing self with
  | zero => rfl
  | succ turns ih =>
      simp only [sendLoop, WorkQ.sendLoop, channelSend, decide_eq_true_eq]
      split
      · rfl
      · cases found : self.queue.senders[
            if self.queue.pos = self.queue.senders.length then 0 else self.queue.pos]? with
        | none => rfl
        | some receiver =>
            by_cases up : receiver ∈ self.alive
            · simp only [up, if_true]
              rfl
            · simp only [up, if_false]
              exact ih _

/-- Whether a send finds this receiver alive. -/
def answers (self : Channels T) (dying : List Nat) (receiver : Nat) : Bool :=
  decide (receiver ∈ (self.drop dying).alive)

/-- A send is a send of the queue, followed by the delivery. -/
theorem send_eq (self : Channels T) (t : T) (dying : List Nat)
    : self.send t dying =
        (self.queue.send (self.answers dying)).map
          fun outcome => (self.drop dying).deliver t outcome.1 outcome.2 :=
  sendLoop_eq ..

/-- A loop with turns to spare ends by itself. -/
theorem sendWithin_eq (self : Channels T) (t : T) {turns : Nat}
    (enough : self.queue.senders.length < turns)
    : sendWithin turns self t = sendWithin (self.queue.senders.length + 1) self t := by
  induction turns, Nat.succ_le_of_lt enough using Nat.le_induction with
  | base => rfl
  | succ turns more ih =>
      rw [← ih more, sendWithin, sendWithin, sendLoop_eq, sendLoop_eq]
      exact congrArg (Except.map _) (WorkQ.sendLoop_succ _ more)

-----------------------------------------------------------------------------------------
-- Senders of living receivers are kept
-----------------------------------------------------------------------------------------

/-- The senders stand in the order of creation, and those of living receivers are there. -/
structure Sound (channels : Channels T) : Prop where
  inOrder : channels.queue.senders <+ List.range channels.created
  living
    : channels.queue.senders.filter (fun receiver => decide (receiver ∈ channels.alive))
      = channels.alive

theorem Sound.new : (new : Channels T).Sound := ⟨.refl _, rfl⟩

theorem Sound.alive_sublist {self : Channels T} (sound : self.Sound)
    : self.alive <+ self.queue.senders := by
  rw [← sound.living]
  exact List.filter_sublist

/-- Receivers are added at the end of both lists. -/
theorem Sound.newRecv {self : Channels T} (sound : self.Sound) : self.newRecv.Sound := by
  refine ⟨?_, ?_⟩
  · rw [Channels.newRecv, WorkQ.newRecv, List.range_succ]
    exact sound.inOrder.append (.refl _)
  · have earlier : ∀ receiver ∈ self.queue.senders, receiver ≠ self.created :=
      fun receiver member => (List.mem_range.mp (sound.inOrder.subset member)).ne
    simp only [Channels.newRecv, WorkQ.newRecv, List.filter_append, List.mem_append,
      List.mem_singleton, List.filter_cons, decide_true, or_true, if_true, List.filter_nil]
    congr 1
    conv_rhs => rw [← sound.living]
    exact List.filter_congr fun receiver member => by simp [earlier receiver member]

/-- Deaths leave the senders alone. -/
theorem Sound.drop {self : Channels T} (sound : self.Sound) (dying : List Nat)
    : (self.drop dying).Sound := by
  refine ⟨sound.inOrder, ?_⟩
  conv_rhs => rw [Channels.drop, ← sound.living, List.filter_filter]
  exact List.filter_congr fun receiver _ => by simp [Channels.drop, and_comm]

/-- What a send of `t` does that finds the receivers in `dying` gone. -/
structure Sends (before : Channels T) (t : T) (dying : List Nat) (result : Except T Nat)
    (after : Channels T) : Prop where
  returned : before.send t dying = .ok (result, after)
  alive : after.alive = before.alive.filter (· ∉ dying)
  created : after.created = before.created
  senders : after.queue.senders <+ before.queue.senders
  taken
    : (∃ receiver ∈ after.alive,
        result = .ok receiver
        ∧ after.sent = Function.update before.sent receiver (before.sent receiver ++ [t]))
      ∨ (after.alive = [] ∧ result = .error t ∧ after.sent = before.sent)

/-- The living receivers, in the order in which the next sends come to them. -/
def cycle (self : Channels T) : List Nat :=
  self.queue.ring.filter fun receiver => decide (receiver ∈ self.alive)

theorem Sound.cycle {self : Channels T} (sound : self.Sound)
    : self.cycle ~r self.alive := by
  conv_rhs => rw [← sound.living]
  exact Lib.isRotated_filter (.forall ..) _

/-- From a sound queue with its cursor in range a send gives the value to the first
receiver of the cycle, and moves it to the end.
-/
theorem Sound.send {self : Channels T} (sound : self.Sound) (ready : self.queue.InRange)
    (t : T) (dying : List Nat)
    : ∃ result after,
        self.Sends t dying result after ∧ after.Sound ∧ after.queue.InRange
        ∧ result = ((self.drop dying).cycle.head?.elim (.error t) .ok)
        ∧ after.cycle = (self.drop dying).cycle.rotate 1 := by
  obtain ⟨queue, sent, turned, sublist, living, inRange⟩ :=
    WorkQ.send_offer (self.answers dying) ready
  have dropped := sound.drop dying
  have taker := Lib.offer_taker (self.answers dying) self.queue.ring
  have kept := Lib.offer_filter (self.answers dying) self.queue.ring
  have returned := self.send_eq t dying
  rw [sent, taker] at returned
  change _ = Except.ok ((self.drop dying).deliver t (self.drop dying).cycle.head? queue)
    at returned
  have sound' (sent : Nat → List T) : Sound { self.drop dying with queue, sent } :=
    ⟨sublist.trans dropped.inOrder, living.trans dropped.living⟩
  have turned' : queue.ring.filter (self.answers dying) = (self.drop dying).cycle.rotate 1 :=
    (congrArg _ turned).trans kept
  cases first : (self.drop dying).cycle with
  | nil =>
      have none_alive : (self.drop dying).alive = [] :=
        List.isRotated_nil_iff'.mp (first ▸ dropped.cycle) |>.symm
      rw [first] at returned
      exact ⟨_, _, ⟨returned, rfl, rfl, sublist, .inr ⟨none_alive, rfl, rfl⟩⟩,
        sound' _, inRange, rfl, first ▸ turned'⟩
  | cons receiver rest =>
      have up : receiver ∈ (self.drop dying).alive :=
        dropped.cycle.mem_iff.mp (first ▸ List.mem_cons_self)
      rw [first] at returned
      exact ⟨_, _, ⟨returned, rfl, rfl, sublist, .inl ⟨receiver, up, rfl, rfl⟩⟩,
        sound' _, inRange, rfl, first ▸ turned'⟩

/-- A queue that can send is sound with its cursor in range. -/
structure Ready (channels : Channels T) : Prop where
  sound : channels.Sound
  inRange : channels.queue.InRange

/-- Every operation keeps the senders of living receivers. A send that panics is none. -/
theorem Sound.step {self after : Channels T} (sound : self.Sound) {op : Op T}
    (taken : self.step op = some after)
    : after.Sound := by
  cases op with
  | newRecv => exact Option.some.inj taken ▸ sound.newRecv
  | die dying => exact Option.some.inj taken ▸ sound.drop dying
  | send t dying =>
      by_cases ready : self.queue.InRange
      · obtain ⟨result, next, sends, kept, _⟩ := sound.send ready t dying
        rw [Channels.step, sends.returned] at taken
        exact Option.some.inj taken ▸ kept
      · rw [Channels.step, send_eq, WorkQ.send_panics _ ready] at taken
        cases taken

/-- Deaths and sends keep the cursor in range. -/
theorem Ready.step {self after : Channels T} (ready : self.Ready) {op : Op T}
    (old : op.isNewRecv = false) (taken : self.step op = some after)
    : after.Ready := by
  refine ⟨ready.sound.step taken, ?_⟩
  cases op with
  | newRecv => cases old
  | die dying => exact Option.some.inj taken ▸ ready.inRange
  | send t dying =>
      obtain ⟨result, next, sends, _, inRange, _⟩ := ready.sound.send ready.inRange t dying
      rw [Channels.step, sends.returned] at taken
      exact Option.some.inj taken ▸ inRange

/-- Before the first send the cursor stands at the front, for any receivers. -/
theorem Ready.spawned {channels : Channels T}
    (spawned : Lib.Reach Channels.step (fun _ op => op.isSend = false) .new channels)
    : channels.Ready := by
  obtain ⟨sound, front⟩ :=
    spawned.invariant (fun channels => channels.Sound ∧ channels.queue.pos = 0)
      ⟨.new, rfl⟩ fun {_ op _} ⟨sound, front⟩ unsent taken => by
        refine ⟨sound.step taken, ?_⟩
        cases op with
        | newRecv => exact Option.some.inj taken ▸ front
        | die => exact Option.some.inj taken ▸ front
        | send => cases unsent
  refine ⟨sound, ?_⟩
  rw [WorkQ.InRange, front, List.length_pos_iff]
  exact Classical.em _

-----------------------------------------------------------------------------------------
-- Sends in a row
-----------------------------------------------------------------------------------------

/-- Values sent one after another while no receiver dies. -/
def sendAll (self : Channels T) : List T → Except Panic (List (Except T Nat) × Channels T)
  | [] => .ok ([], self)
  | t :: rest => do
      let (result, self) ← self.send t []
      let (results, self) ← sendAll self rest
      return (result :: results, self)

@[simp] theorem drop_nil (self : Channels T) : self.drop [] = self := by
  simp [drop]

/-- Sends in a row go round the cycle of living receivers, by induction on the values. -/
theorem Ready.sendAll {self : Channels T} (ready : self.Ready) (values : List T)
    : ∃ results after,
        self.sendAll values = .ok (results, after) ∧ after.alive = self.alive
        ∧ results.length = values.length
        ∧ ∀ place (within : place < values.length),
            results[place]? =
              some ((self.cycle.rotate place).head?.elim (.error values[place]) .ok) := by
  induction values generalizing self with
  | nil => exact ⟨[], self, rfl, rfl, rfl, fun _ within => by cases within⟩
  | cons t rest ih =>
      obtain ⟨result, next, sends, sound, inRange, taker, turned⟩ :=
        ready.sound.send ready.inRange t []
      obtain ⟨results, after, sent, alive, count, places⟩ := ih ⟨sound, inRange⟩
      rw [drop_nil] at taker turned
      refine ⟨result :: results, after, ?_, ?_, congrArg Nat.succ count, ?_⟩
      · simp only [Channels.sendAll, sends.returned, bind, Except.bind, sent, pure,
          Except.pure]
      · rw [alive, sends.alive]
        simp
      · rintro (_ | place) within
        · rw [List.getElem?_cons_zero, List.rotate_zero, taker, List.getElem_cons_zero]
        · rw [List.getElem?_cons_succ, places place (Nat.lt_of_succ_lt_succ within), turned,
            List.rotate_rotate, Nat.add_comm, List.getElem_cons_succ]

/-- Every send, with whatever receivers dying before it comes to them, returns by itself
and leaves at most one value at one living receiver; the senders of living receivers stay,
in the order of creation.
-/
structure Delivers (channels : Channels T) : Prop where
  returns
    : ∀ t dying,
        ∃ result after,
          channels.Sends t dying result after
          ∧ ∀ turns,
              channels.queue.senders.length < turns
              → sendWithin turns (channels.drop dying) t = .ok (result, after)
  kept : channels.alive <+ channels.queue.senders
  inOrder : channels.queue.senders <+ List.range channels.created

/-- Sends in a row while no receiver dies go to the living receivers in cyclic order of
creation; so many as there are receivers go to different ones.
-/
def Fair (channels : Channels T) : Prop :=
  ∃ cycle,
    cycle ~r channels.alive
    ∧ ∀ values,
        ∃ results after,
          channels.sendAll values = .ok (results, after)
          ∧ after.alive = channels.alive
          ∧ results.length = values.length
          ∧ (cycle ≠ []
            → ∀ place < values.length,
                results[place]? = cycle[place % cycle.length]?.map .ok)
          ∧ (values.length ≤ channels.alive.length → results.Nodup)

theorem Ready.delivers {channels : Channels T} (ready : channels.Ready)
    : channels.Delivers where
  returns t dying := by
    obtain ⟨result, after, sends, _⟩ := ready.sound.send ready.inRange t dying
    refine ⟨result, after, sends, fun turns enough => ?_⟩
    rw [sendWithin_eq (channels.drop dying) t enough]
    exact sends.returned
  kept := ready.sound.alive_sublist
  inOrder := ready.sound.inOrder

/-- Witness: the cycle is the ring without dead receivers, and its places are different. -/
theorem Ready.fair {channels : Channels T} (ready : channels.Ready) : channels.Fair := by
  have turned := ready.sound.cycle
  have distinct : channels.cycle.Nodup :=
    turned.nodup_iff.mpr
      ((ready.sound.alive_sublist.trans ready.sound.inOrder).nodup List.nodup_range)
  refine ⟨channels.cycle, turned, fun values => ?_⟩
  obtain ⟨results, after, sent, alive, count, places⟩ := ready.sendAll values
  have taken (filled : channels.cycle ≠ []) (place : Nat) (within : place < values.length)
      : results[place]? = channels.cycle[place % channels.cycle.length]?.map .ok := by
    have bound := Nat.mod_lt place (List.length_pos_iff.mpr filled)
    rw [places place within, Lib.rotate_head? filled, List.getElem?_eq_getElem bound]
    rfl
  refine ⟨results, after, sent, alive, count, taken, fun few => ?_⟩
  rw [← turned.perm.length_eq] at few
  suffices first : results = (channels.cycle.take values.length).map .ok by
    rw [first]
    exact (distinct.sublist (List.take_sublist ..)).map fun _ _ same => Except.ok.inj same
  refine List.ext_getElem? fun place => ?_
  rw [List.getElem?_map]
  by_cases within : place < values.length
  · have filled : channels.cycle ≠ [] := List.length_pos_iff.mp (by omega)
    rw [taken filled place within, List.getElem?_take_of_lt within,
      Nat.mod_eq_of_lt (by omega)]
  · rw [List.getElem?_eq_none (by omega), List.getElem?_take_eq_none (by omega)]
    rfl

-----------------------------------------------------------------------------------------
-- Runs
-----------------------------------------------------------------------------------------

/-- With its receivers created before the first send, a queue delivers every value to one
living receiver, in fair turns, whenever receivers die.
-/
theorem send_round_robin {first channels : Channels T}
    (spawned : Lib.Reach Channels.step (fun _ op => op.isSend = false) .new first)
    (run : Lib.Reach Channels.step (fun _ op => op.isNewRecv = false) first channels)
    : channels.Delivers ∧ channels.Fair := by
  have ready : channels.Ready :=
    run.invariant Ready (.spawned spawned) fun ready old taken => ready.step old taken
  exact ⟨ready.delivers, ready.fair⟩

/-- Two receivers are created and the first one dies in the first send. -/
theorem send_round_robin_two
    : ∃ first channels : Channels Bool,
        Lib.Reach Channels.step (fun _ op => op.isSend = false) .new first
        ∧ Lib.Reach Channels.step (fun _ op => op.isNewRecv = false) first channels
        ∧ channels.alive = [1]
        ∧ channels.sent 1 = [true]
        ∧ channels.Delivers
        ∧ channels.Fair := by
  have spawned : Lib.Reach Channels.step (fun _ op => op.isSend = false)
      (.new : Channels Bool) Channels.new.newRecv.newRecv := by
    have one : Lib.Reach Channels.step (fun _ op => op.isSend = false)
        (.new : Channels Bool) Channels.new.newRecv :=
      Lib.Reach.start.next (rfl : Op.newRecv.isSend = false) rfl
    exact one.next (rfl : Op.newRecv.isSend = false) rfl
  have run : Lib.Reach Channels.step (fun _ op => op.isNewRecv = false)
      (Channels.new.newRecv.newRecv : Channels Bool) _ :=
    Lib.Reach.start.next (rfl : (Op.send true [0]).isNewRecv = false) rfl
  exact ⟨_, _, spawned, run, by decide, by decide, send_round_robin spawned run⟩

/-- A queue whose only receiver came after a failed send. -/
theorem send_past_senders
    : ¬ ∀ channels : Channels Bool,
        Lib.Reach Channels.step (fun _ _ => True) .new channels
        → ∀ t dying, channels.send t dying ≠ .error .workqIndex := by
  intro safe
  have failed : Lib.Reach Channels.step (fun _ _ => True) (.new : Channels Bool) _ :=
    Lib.Reach.start.next trivial (rfl : Channels.step .new (.send true []) = some _)
  have grown := failed.next trivial (rfl : Channels.step _ .newRecv = some _)
  exact safe _ grown true [] rfl

/-- A send whose cursor stands past the senders panics, and only such a send does. In a run
without one, every send made while some receiver is alive succeeds.
-/
theorem send_usable {channels : Channels T}
    (run
      : Lib.Reach Channels.step
          (fun before op => op.isSend = true → before.queue.InRange) .new channels)
    (t : T) (dying : List Nat)
    : (channels.send t dying = .error .workqIndex ↔ ¬ channels.queue.InRange)
      ∧ (channels.queue.InRange
        → ∃ result after,
            channels.send t dying = .ok (result, after)
            ∧ ((∃ receiver ∈ channels.alive, receiver ∉ dying)
              → ∃ receiver, result = .ok receiver)) := by
  have sound : channels.Sound :=
    run.invariant Sound .new fun sound _ taken => sound.step taken
  refine ⟨?_, fun ready => ?_⟩
  · rw [← WorkQ.send_panics_iff (channels.answers dying), send_eq]
    cases channels.queue.send (channels.answers dying) with
    | error panic => simp only [Except.map, Except.error.injEq]
    | ok outcome => simp only [Except.map, reduceCtorEq]
  · obtain ⟨result, after, sends, _⟩ := sound.send ready t dying
    refine ⟨result, after, sends.returned, fun ⟨receiver, up, survives⟩ => ?_⟩
    rcases sends.taken with ⟨receiver, _, taken, _⟩ | ⟨none_alive, _⟩
    · exact ⟨receiver, taken⟩
    · have still : receiver ∈ after.alive := by simp [sends.alive, up, survives]
      simp [none_alive] at still

/-- The only receiver gets what is sent next. -/
theorem send_usable_one
    : let channels : Channels Bool := Channels.new.newRecv
      channels.queue.InRange
      ∧ ∃ result after,
          channels.send true [] = .ok (result, after)
          ∧ ∃ receiver, result = .ok receiver := by
  have run : Lib.Reach Channels.step
      (fun before op => op.isSend = true → before.queue.InRange)
      (.new : Channels Bool) Channels.new.newRecv :=
    Lib.Reach.start.next (fun sends : Op.newRecv.isSend = true => by cases sends) rfl
  have ready : (Channels.new.newRecv : Channels Bool).queue.InRange := by decide
  obtain ⟨result, after, sent, taken⟩ := (send_usable run true []).2 ready
  exact ⟨ready, result, after, sent, taken ⟨0, by decide, by decide⟩⟩

end Channels
end Casket
