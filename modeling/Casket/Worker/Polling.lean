import Casket.Lib.Maps
import Casket.Worker.Poller

/-! What a tick delivers: the timers that are due, and events drawn from the two maps for
the interests that were reported.
-/

namespace Casket

open Lib

namespace Poller

/-- A token is reported ready in one of the two ways. -/
def Reported (ready : MioEvent → Bool) (mioEvents : List MioEvent) (tk : Token) : Prop :=
  ∃ mioEv ∈ mioEvents, mioEv.token = tk ∧ ready mioEv = true

theorem Reported.mono {ready : MioEvent → Bool} {some more : List MioEvent} {tk : Token}
    (sub : some ⊆ more) (reported : Reported ready some tk)
    : Reported ready more tk := by
  obtain ⟨mioEv, member, same⟩ := reported
  exact ⟨mioEv, sub member, same⟩

/-- The events drawn for some reports; nothing else of the poller changes. -/
structure Draws (before after : Poller) (mioEvents : List MioEvent)
    (reads writes : List (Token × Event)) : Prop where
  reads : Drawn before.eventsRegRead after.eventsRegRead (Reported (·.readable) mioEvents) reads
  writes : Drawn before.eventsRegWrite after.eventsRegWrite (Reported (·.writable) mioEvents) writes
  registry : after.registry = before.registry
  timerq : after.timerq = before.timerq

variable {self after : Poller} {mioEv : MioEvent} {mioEvents : List MioEvent}
  {events delivered more : List (Token × Event)}

/-- One report draws at most one event from each map. -/
theorem takeRegistered_draws (taken : self.takeRegistered mioEv = .ok (after, more))
    : ∃ reads writes, more = reads ++ writes ∧ self.Draws after [mioEv] reads writes := by
  have reported {ready : MioEvent → Bool} (is : ready mioEv = true)
      : Reported ready [mioEv] mioEv.token :=
    ⟨mioEv, List.mem_singleton_self _, rfl, is⟩
  unfold takeRegistered at taken
  cases reads : mioEv.readable with
  | false =>
      cases writes : mioEv.writable with
      | false =>
          simp only [reads, writes, Bool.false_eq_true, if_false] at taken
          obtain ⟨rfl, rfl⟩ := Prod.mk.inj (Except.ok.inj taken)
          exact ⟨[], [], rfl, .nil _ _, .nil _ _, rfl, rfl⟩
      | true =>
          simp only [reads, writes, Bool.false_eq_true, if_false, if_true] at taken
          split at taken
          · cases taken
          · next ev found =>
              obtain ⟨rfl, rfl⟩ := Prod.mk.inj (Except.ok.inj taken)
              exact ⟨[], [(mioEv.token, ev)], rfl, .nil _ _, .erase found (reported writes),
                rfl, rfl⟩
  | true =>
      cases looked : self.eventsRegRead.lookup mioEv.token with
      | none =>
          simp only [reads, looked, if_true] at taken
          cases taken
      | some first =>
          have drawn := Drawn.erase looked (reported reads)
          cases writes : mioEv.writable with
          | false =>
              simp only [reads, writes, looked, Bool.false_eq_true, if_false, if_true] at taken
              obtain ⟨rfl, rfl⟩ := Prod.mk.inj (Except.ok.inj taken)
              exact ⟨[(mioEv.token, first)], [], rfl, drawn, .nil _ _, rfl, rfl⟩
          | true =>
              simp only [reads, writes, looked, if_true] at taken
              split at taken
              · cases taken
              · next ev found =>
                  obtain ⟨rfl, rfl⟩ := Prod.mk.inj (Except.ok.inj taken)
                  exact ⟨[(mioEv.token, first)], [(mioEv.token, ev)], rfl, drawn,
                    .erase found (reported writes), rfl, rfl⟩

/-- All reports draw their events, by induction on the reports. -/
theorem takeAllRegistered_draws
    (taken : self.takeAllRegistered events mioEvents = .ok (after, delivered))
    : ∃ reads writes,
        delivered.Perm (events ++ (reads ++ writes))
        ∧ self.Draws after mioEvents reads writes := by
  induction mioEvents generalizing self events with
  | nil =>
      obtain ⟨rfl, rfl⟩ := Prod.mk.inj (Except.ok.inj taken)
      refine ⟨[], [], ?_, .nil _ _, .nil _ _, rfl, rfl⟩
      rw [List.append_nil, List.append_nil]
  | cons mioEv rest ih =>
      simp only [takeAllRegistered] at taken
      split at taken
      · cases taken
      · next middle first one =>
          obtain ⟨reads, writes, rfl, head⟩ := takeRegistered_draws one
          obtain ⟨moreReads, moreWrites, order, tail⟩ := ih taken
          refine ⟨reads ++ moreReads, writes ++ moreWrites, order.trans ?_, ?_⟩
          · simp only [List.append_assoc]
            refine List.Perm.append_left events (List.Perm.append_left reads ?_)
            rw [← List.append_assoc, ← List.append_assoc]
            exact List.perm_append_comm.append_right moreWrites
          · have here : [mioEv] ⊆ mioEv :: rest := List.cons_subset_cons _ (List.nil_subset _)
            have there : rest ⊆ mioEv :: rest := List.subset_cons_self _ _
            exact
              { reads :=
                  (head.reads.weaken (Reported.mono here)).append
                    (tail.reads.weaken (Reported.mono there))
                writes :=
                  (head.writes.weaken (Reported.mono here)).append
                    (tail.writes.weaken (Reported.mono there))
                registry := tail.registry.trans head.registry
                timerq := tail.timerq.trans head.timerq }

/-- Each source is reported once as ready in one of the two ways. -/
def ReportedOnce (ready : MioEvent → Bool) (mioEvents : List MioEvent) : Prop :=
  ((mioEvents.filter ready).map MioEvent.token).Nodup

instance (ready : MioEvent → Bool) (mioEvents : List MioEvent)
    : Decidable (ReportedOnce ready mioEvents) :=
  inferInstanceAs (Decidable (List.Nodup _))

theorem ReportedOnce.tail {ready : MioEvent → Bool}
    (once : ReportedOnce ready (mioEv :: mioEvents))
    : ReportedOnce ready mioEvents :=
  once.sublist (((List.sublist_cons_self _ _).filter _).map _)

/-- What the later reports name is not what the first one names. -/
theorem ReportedOnce.others {ready : MioEvent → Bool} {other : MioEvent}
    (once : ReportedOnce ready (mioEv :: mioEvents)) (member : other ∈ mioEvents)
    (is : ready other = true)
    : ¬ Reported ready [mioEv] other.token := by
  rintro ⟨first, here, same, first_ready⟩
  obtain rfl := List.mem_singleton.mp here
  rw [ReportedOnce, List.filter_cons_of_pos first_ready, List.map_cons, same] at once
  refine (List.nodup_cons.mp once).1 ?_
  exact List.mem_map.mpr ⟨other, List.mem_filter.mpr ⟨member, is⟩, rfl⟩

/-- A report whose source has its entries does not panic. -/
theorem takeRegistered_total
    (read : mioEv.readable = true → mioEv.token ∈ self.eventsRegRead.keys)
    (write : mioEv.writable = true → mioEv.token ∈ self.eventsRegWrite.keys)
    : ∃ after more, self.takeRegistered mioEv = .ok (after, more) := by
  unfold takeRegistered
  cases reads : mioEv.readable with
  | false =>
      cases writes : mioEv.writable with
      | false => exact ⟨_, _, rfl⟩
      | true =>
          obtain ⟨ev, found⟩ := exists_lookup (write writes)
          simp only [found, Bool.false_eq_true, if_false, if_true]
          exact ⟨_, _, rfl⟩
  | true =>
      obtain ⟨first, looked⟩ := exists_lookup (read reads)
      cases writes : mioEv.writable with
      | false =>
          simp only [looked, Bool.false_eq_true, if_false, if_true]
          exact ⟨_, _, rfl⟩
      | true =>
          obtain ⟨ev, found⟩ := exists_lookup (write writes)
          simp only [looked, found, if_true]
          exact ⟨_, _, rfl⟩

/-- Neither do reports of which each finds its entries. Witness: by induction on the reports, a
report draws the entries of no later one.
-/
theorem takeAllRegistered_total
    (read
      : ∀ mioEv ∈ mioEvents, mioEv.readable = true → mioEv.token ∈ self.eventsRegRead.keys)
    (write
      : ∀ mioEv ∈ mioEvents, mioEv.writable = true → mioEv.token ∈ self.eventsRegWrite.keys)
    (readOnce : ReportedOnce (·.readable) mioEvents)
    (writeOnce : ReportedOnce (·.writable) mioEvents)
    : ∃ after delivered, self.takeAllRegistered events mioEvents = .ok (after, delivered) := by
  induction mioEvents generalizing self events with
  | nil => exact ⟨_, _, rfl⟩
  | cons mioEv rest ih =>
      have here : mioEv ∈ mioEv :: rest := List.mem_cons_self
      obtain ⟨middle, more, taken⟩ := takeRegistered_total (read mioEv here) (write mioEv here)
      obtain ⟨reads, writes, -, draws⟩ := takeRegistered_draws taken
      simp only [takeAllRegistered, taken]
      refine ih ?_ ?_ readOnce.tail writeOnce.tail
      · intro other member is
        exact draws.reads.keeps (read other (List.mem_cons_of_mem _ member) is)
          (readOnce.others member is)
      · intro other member is
        exact draws.writes.keeps (write other (List.mem_cons_of_mem _ member) is)
          (writeOnce.others member is)

/-- A tick delivers the due timers and the drawn events, or the signal that interrupted it. -/
theorem tick_delivers {now : SystemTime} {popped : List TimerEntry}
    {polled : Except IoError (List MioEvent)}
    (ticked : self.tick events now popped polled = .ok (after, .ok delivered))
    : ∃ reads writes signals,
        delivered.Perm
          (events ++ popped.map (fun entry => (entry.token, entry.event))
            ++ (reads ++ writes ++ signals))
        ∧ { self with timerq := self.timerq.filter (now < ·.timeout) }.Draws after
            (polled.toOption.getD []) reads writes
        ∧ ∀ item ∈ signals, item = (0, .ctrlC) := by
  unfold tick at ticked
  split at ticked
  · split at ticked
    · obtain ⟨rfl, same⟩ := Prod.mk.inj (Except.ok.inj ticked)
      obtain rfl := Except.ok.inj same
      exact ⟨[], [], [(0, .ctrlC)], .rfl, ⟨.nil _ _, .nil _ _, rfl, rfl⟩,
        fun _ member => List.mem_singleton.mp member⟩
    · cases ticked
  · dsimp only at ticked
    split at ticked
    · cases ticked
    · next all =>
        obtain ⟨rfl, same⟩ := Prod.mk.inj (Except.ok.inj ticked)
        obtain rfl := Except.ok.inj same
        obtain ⟨reads, writes, order, draws⟩ := takeAllRegistered_draws all
        refine ⟨reads, writes, [], ?_, draws, nofun⟩
        rwa [List.append_nil]

/-- A tick does not panic when every report finds its entries. -/
theorem tick_total {now : SystemTime} {popped : List TimerEntry}
    {polled : Except IoError (List MioEvent)}
    (read
      : ∀ mioEv ∈ polled.toOption.getD [],
          mioEv.readable = true → mioEv.token ∈ self.eventsRegRead.keys)
    (write
      : ∀ mioEv ∈ polled.toOption.getD [],
          mioEv.writable = true → mioEv.token ∈ self.eventsRegWrite.keys)
    (readOnce : ReportedOnce (·.readable) (polled.toOption.getD []))
    (writeOnce : ReportedOnce (·.writable) (polled.toOption.getD []))
    : ∃ after out, self.tick events now popped polled = .ok (after, out) := by
  unfold tick
  cases polled with
  | error e =>
      dsimp only
      split
      · exact ⟨_, _, rfl⟩
      · exact ⟨_, _, rfl⟩
  | ok mioEvents =>
      let waiting : Poller := { self with timerq := self.timerq.filter (now < ·.timeout) }
      let due := popped.map fun entry => (entry.token, entry.event)
      obtain ⟨after, delivered, taken⟩
          : ∃ after delivered,
              waiting.takeAllRegistered (events ++ due) mioEvents = .ok (after, delivered) :=
        takeAllRegistered_total read write readOnce writeOnce
      dsimp only [waiting, due] at taken ⊢
      rw [taken]
      exact ⟨_, _, rfl⟩

end Poller
end Casket
