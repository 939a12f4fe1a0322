import Casket.Worker.Exclusive

/-! Every token the worker received is owned by one of its maps until it is answered. The
poller watches a stream only for what its map waits for, so every event finds its stream.
-/

namespace Casket

open Lib WorkerEffect

/-- Nothing was polled yet in this turn of the loop. -/
def WorkerPhase.unpolled : WorkerPhase → Bool
  | .top => true
  | .ticking _ => true
  | _ => false

theorem WorkerPhase.unpolled_pushResults (phase : WorkerPhase) (more : List ActionResult)
    : (phase.pushResults more).unpolled = phase.unpolled := by
  cases phase <;> rfl

theorem WorkerPhase.unpolled_pushTimeout (phase : WorkerPhase) (tk : Token)
    (timeout : Timeout)
    : (phase.pushTimeout tk timeout).unpolled = phase.unpolled := by
  cases phase <;> rfl

/-- A result is drained after the poll. -/
theorem WorkerPhase.nextResult_unpolled {phase rest : WorkerPhase} {res : ActionResult}
    (popped : phase.nextResult = some (res, rest))
    : rest.unpolled = false := by
  unfold nextResult at popped
  split at popped
  · obtain ⟨-, rfl⟩ := Prod.mk.inj (Option.some.inj popped)
    rfl
  · obtain ⟨-, rfl⟩ := Prod.mk.inj (Option.some.inj popped)
    rfl
  · cases popped

namespace WorkerLoop

-----------------------------------------------------------------------------------------
-- What is promised and what is kept
-----------------------------------------------------------------------------------------

/-- A source is registered for one of its interests: the unix stream, or a stream that was
not dropped.
-/
def Watched (self : WorkerLoop) (interested : Interest → Bool) (tk : Token) : Prop :=
  tk = unixStreamToken ∧ interested self.unixInterest = true
  ∨ (self.worker.poll.registry.lookup tk).any interested = true

/-- `mio` reports only interests that are registered. -/
def Reports (self : WorkerLoop) : WorkerInput → Prop
  | .tick _ _ (.ok mioEvents) =>
      ∀ mioEv ∈ mioEvents,
        (mioEv.readable = true → self.Watched Interest.readable mioEv.token)
        ∧ (mioEv.writable = true → self.Watched Interest.writable mioEv.token)
  | _ => True

instance (self : WorkerLoop) (interested : Interest → Bool) (tk : Token)
    : Decidable (self.Watched interested tk) :=
  inferInstanceAs (Decidable (_ ∨ _))

instance (self : WorkerLoop) (input : WorkerInput) : Decidable (self.Reports input) :=
  match input with
  | .tick _ _ (.ok mioEvents) => List.decidableBAll _ mioEvents
  | .tick _ _ (.error _) | .top | .event _ | .action .. | .timeout _ | .reregister _ | .advance
  | .socket _ | .codeStart .. | .respond .. | .threadDies _ =>
      isTrue trivial

/-- The tokens in the four maps. -/
def owners (worker : Worker) : Multiset Token :=
  (worker.serverReadingStreams.keys : Multiset Token) + worker.serverPendingStreams.keys
  + worker.serverWritingStreams.keys + worker.serverCasketResponses.keys

/-- A received token is in exactly one map and known to the message buffer until it is
answered, and in none afterwards; every answer is one frame.
-/
structure OwnsTokens (bincode : Bincode) (state : WorkerLoop) : Prop where
  unanswered
    : ∀ tk ∈ (total came state.trace).map Prod.fst,
        tk ∉ (responses state.trace).map Response.token →
          (owners state.worker).count tk = 1 ∧ tk ∈ state.worker.msgBuf.serverFds.keys
  answered
    : ∀ tk ∈ (responses state.trace).map Response.token,
        tk ∉ owners state.worker ∧ tk ∉ state.worker.msgBuf.serverFds.keys
  frames
    : accepted state.trace ++ state.worker.msgBuf.writeBuffer
      = frames bincode (responses state.trace)

/-- The tokens of the streams among the results. -/
def handling (phase : WorkerPhase) : List Token :=
  (phase.workerResults.filterMap ActionResult.held?).map Prod.fst

/-- A stream is in the map of what it is registered for. -/
def Waits (self : WorkerLoop) (tk : Token) (interest : Interest) : Prop :=
  interest = ⟨true, false⟩ ∧ tk ∈ self.worker.serverReadingStreams.keys
  ∨ interest = ⟨false, true⟩
    ∧ (tk ∈ self.worker.serverWritingStreams.keys
      ∨ tk ∈ self.worker.serverCasketResponses.keys)

/-- Streams that are registered wait, unless they are being handled, and the event for a
stream that can be written to is for the map it is in.
-/
structure Registered (state : WorkerLoop) : Prop where
  waits
    : ∀ {tk interest}, state.worker.poll.registry.lookup tk = some interest →
        state.Waits tk interest ∨ tk ∈ handling state.phase
  writing
    : ∀ {tk}, tk ∈ state.worker.serverWritingStreams.keys →
        state.worker.poll.eventsRegWrite.lookup tk ≠ some .casketResponseWrite
  casket
    : ∀ {tk}, tk ∈ state.worker.serverCasketResponses.keys →
        state.worker.poll.eventsRegWrite.lookup tk ≠ some .serverStreamWrite

/-- The stream of an event is in the map the event looks into. -/
def Finds (self : WorkerLoop) : Token × Event → Prop
  | (tk, .serverStreamRead) => tk ∈ self.worker.serverReadingStreams.keys
  | (tk, .serverStreamWrite) => tk ∈ self.worker.serverWritingStreams.keys
  | (tk, .casketResponseWrite) => tk ∈ self.worker.serverCasketResponses.keys
  | _ => True

/-- An event that takes a stream out of a map. -/
def takesStream (item : Token × Event) : Bool :=
  item.2 = .serverStreamRead ∨ item.2 = .serverStreamWrite ∨ item.2 = .casketResponseWrite

/-- Before the poll the events of the unix stream are in place and no event takes a stream;
after it every such event finds its stream and comes once.
-/
structure Foresees (state : WorkerLoop) : Prop where
  unix
    : state.phase.unpolled = true →
        state.worker.poll.eventsRegRead.lookup unixStreamToken = some .unixStreamRead
        ∧ (state.unixInterest.writable = true →
          state.worker.poll.eventsRegWrite.lookup unixStreamToken = some .unixStreamWrite)
        ∧ ∀ item ∈ state.phase.eventsBuf, takesStream item = false
  found : ∀ item ∈ state.phase.eventsBuf, state.Finds item
  once : (state.phase.eventsBuf.filter takesStream).Nodup

variable {cfg : Config} {crates : Crates} {bincode : Bincode} {self after : WorkerLoop}
  {input : WorkerInput} {tk : Token}

-----------------------------------------------------------------------------------------
-- No token is twice among the streams
-----------------------------------------------------------------------------------------

theorem mem_owners {worker : Worker}
    : tk ∈ owners worker
      ↔ tk ∈ worker.serverReadingStreams.keys ∨ tk ∈ worker.serverPendingStreams.keys
        ∨ tk ∈ worker.serverWritingStreams.keys ∨ tk ∈ worker.serverCasketResponses.keys := by
  simp only [owners, Multiset.mem_add, Multiset.mem_coe, or_assoc]

theorem map_fst_mapped (worker : Worker) : (mapped worker).map Prod.fst = owners worker := by
  simp only [mapped, owners, Multiset.map_add, map_fst_contents]

/-- Every token that came has its stream or was answered. -/
theorem Conserves.tokens (conserves : self.Conserves bincode)
    (distinct : ((total came self.trace).map Prod.fst).Nodup)
    : (total came self.trace).map Prod.fst
      = self.holdings.map Prod.fst + total WorkerEffect.told self.trace := by
  rw [conserves.streams, conserves.unreplaced distinct, add_zero, Multiset.map_add,
    conserves.answers]

/-- So no token is twice among the streams. -/
theorem Conserves.once (conserves : self.Conserves bincode)
    (distinct : ((total came self.trace).map Prod.fst).Nodup)
    : (self.holdings.map Prod.fst).Nodup := by
  rw [conserves.tokens distinct] at distinct
  exact (Multiset.nodup_add.mp distinct).1

/-- The streams in the maps are among all streams. -/
theorem once_owners (once : (self.holdings.map Prod.fst).Nodup)
    : (owners self.worker).Nodup := by
  rw [holdings, Multiset.map_add, map_fst_mapped] at once
  exact (Multiset.nodup_add.mp once).2.1

/-- A stream that is handled is in no map. -/
theorem held_apart {res : ActionResult} {phase : WorkerPhase} {tcpStream : TcpStream}
    (popped : self.phase.nextResult = some (res, phase))
    (once : (self.holdings.map Prod.fst).Nodup) (held : res.held? = some (tk, tcpStream))
    : tk ∉ owners self.worker := by
  rw [holdings, inFlight_nextResult popped, held, Multiset.map_add, map_fst_mapped,
    Multiset.map_add] at once
  refine Multiset.disjoint_left.mp (Multiset.nodup_add.mp once).2.2 ?_
  exact Multiset.mem_add.mpr (.inl (Multiset.mem_singleton_self tk))

/-- A stream that waits for its response is in no other map. -/
theorem pending_apart (once : (owners self.worker).Nodup)
    (waits : tk ∈ self.worker.serverPendingStreams.keys)
    : tk ∉ self.worker.serverReadingStreams.keys
      ∧ tk ∉ self.worker.serverWritingStreams.keys
      ∧ tk ∉ self.worker.serverCasketResponses.keys := by
  obtain ⟨first, -, casket⟩ := Multiset.nodup_add.mp once
  obtain ⟨second, -, writing⟩ := Multiset.nodup_add.mp first
  obtain ⟨-, -, reading⟩ := Multiset.nodup_add.mp second
  have pending
      : tk ∈ (self.worker.serverReadingStreams.keys : Multiset Token)
          + self.worker.serverPendingStreams.keys :=
    Multiset.mem_add.mpr (.inr waits)
  refine ⟨fun member => ?_, ?_, ?_⟩
  · exact Multiset.disjoint_left.mp reading member waits
  · exact Multiset.disjoint_left.mp writing pending
  · exact Multiset.disjoint_left.mp casket (Multiset.mem_add.mpr (.inl pending))

-----------------------------------------------------------------------------------------
-- Registrations
-----------------------------------------------------------------------------------------

/-- A step that concerns one stream: the others stay registered and in their maps. -/
structure Touches (before after : WorkerLoop) (tk : Token) : Prop where
  registry
    : ∀ {other}, other ≠ tk →
        after.worker.poll.registry.lookup other = before.worker.poll.registry.lookup other
  write
    : ∀ {other}, other ≠ tk →
        after.worker.poll.eventsRegWrite.lookup other
        = before.worker.poll.eventsRegWrite.lookup other
  reading
    : ∀ {other}, other ≠ tk →
        (other ∈ after.worker.serverReadingStreams.keys
        ↔ other ∈ before.worker.serverReadingStreams.keys)
  writing
    : ∀ {other}, other ≠ tk →
        (other ∈ after.worker.serverWritingStreams.keys
        ↔ other ∈ before.worker.serverWritingStreams.keys)
  casket
    : ∀ {other}, other ≠ tk →
        (other ∈ after.worker.serverCasketResponses.keys
        ↔ other ∈ before.worker.serverCasketResponses.keys)
  handled
    : ∀ {other}, other ≠ tk → other ∈ handling before.phase → other ∈ handling after.phase

/-- What has to hold of the stream a step concerns. -/
structure Settled (after : WorkerLoop) (tk : Token) : Prop where
  waits
    : ∀ {interest}, after.worker.poll.registry.lookup tk = some interest →
        after.Waits tk interest ∨ tk ∈ handling after.phase
  writing
    : tk ∈ after.worker.serverWritingStreams.keys →
        after.worker.poll.eventsRegWrite.lookup tk ≠ some .casketResponseWrite
  casket
    : tk ∈ after.worker.serverCasketResponses.keys →
        after.worker.poll.eventsRegWrite.lookup tk ≠ some .serverStreamWrite

/-- Then the registrations are still right for all streams. -/
theorem Registered.touched (registered : self.Registered) (touches : self.Touches after tk)
    (settled : after.Settled tk)
    : after.Registered where
  waits := by
    intro other interest looked
    by_cases same : other = tk
    · subst same
      exact settled.waits looked
    · rw [touches.registry same] at looked
      rcases registered.waits looked with waits | handled
      · left
        rw [Waits, touches.reading same, touches.writing same, touches.casket same]
        exact waits
      · exact .inr (touches.handled same handled)
  writing := by
    intro other member
    by_cases same : other = tk
    · subst same
      exact settled.writing member
    · rw [touches.write same]
      exact registered.writing ((touches.writing same).mp member)
  casket := by
    intro other member
    by_cases same : other = tk
    · subst same
      exact settled.casket member
    · rw [touches.write same]
      exact registered.casket ((touches.casket same).mp member)

/-- A stream that was handled is the popped one, or is still handled. -/
theorem handled_popped {res : ActionResult} {phase : WorkerPhase}
    (popped : self.phase.nextResult = some (res, phase)) (member : tk ∈ handling self.phase)
    : (∃ tcpStream, res.held? = some (tk, tcpStream)) ∨ tk ∈ handling phase := by
  obtain ⟨results, -⟩ := WorkerPhase.nextResult_spec popped
  obtain ⟨⟨other, tcpStream⟩, there, rfl⟩ := List.mem_map.mp member
  obtain ⟨first, isIn, held⟩ := List.mem_filterMap.mp there
  rw [results] at isIn
  rcases List.mem_cons.mp isIn with rfl | later
  · exact .inl ⟨tcpStream, held⟩
  · exact .inr (List.mem_map.mpr ⟨_, List.mem_filterMap.mpr ⟨first, later, held⟩, rfl⟩)

/-- A poller that forgets a stream keeps the events of the others. -/
theorem forgets_write {before poll : Poller} {other : Token} (forgets : before.Forgets poll tk)
    (different : other ≠ tk)
    : poll.eventsRegWrite.lookup other = before.eventsRegWrite.lookup other := by
  rcases forgets.write with same | same | same
  · rw [same]
  · rw [same, AList.lookup_insert_ne different]
  · rw [same, AList.lookup_insert_ne different]

/-- A stream that is registered for reading comes into the map of those. -/
theorem Registered.reads (registered : self.Registered) {value : TcpStream × Reader}
    (registry
      : after.worker.poll.registry = self.worker.poll.registry.insert tk ⟨true, false⟩)
    (write : after.worker.poll.eventsRegWrite = self.worker.poll.eventsRegWrite)
    (reading
      : after.worker.serverReadingStreams = self.worker.serverReadingStreams.insert tk value)
    (writing : after.worker.serverWritingStreams = self.worker.serverWritingStreams)
    (casket : after.worker.serverCasketResponses = self.worker.serverCasketResponses)
    (handled : ∀ {other}, other ≠ tk → other ∈ handling self.phase → other ∈ handling after.phase)
    (apart
      : tk ∉ self.worker.serverWritingStreams.keys
        ∧ tk ∉ self.worker.serverCasketResponses.keys)
    : after.Registered := by
  refine registered.touched
    { registry := fun different => registry ▸ AList.lookup_insert_ne different
      write := fun _ => write ▸ rfl
      reading := fun different => reading ▸ mem_keys_insert.trans (or_iff_right different)
      writing := fun _ => writing ▸ .rfl
      casket := fun _ => casket ▸ .rfl
      handled } ⟨?_, ?_, ?_⟩
  · intro interest looked
    rw [registry, AList.lookup_insert] at looked
    refine .inl (.inl ⟨(Option.some.inj looked).symm, ?_⟩)
    rw [reading]
    exact mem_keys_insert.mpr (.inl rfl)
  · rw [writing]
    exact fun member => absurd member apart.1
  · rw [casket]
    exact fun member => absurd member apart.2

/-- So does a stream that is registered for writing a response. -/
theorem Registered.writes (registered : self.Registered) {value : TcpStream × Writer}
    (registry
      : after.worker.poll.registry = self.worker.poll.registry.insert tk ⟨false, true⟩)
    (write
      : after.worker.poll.eventsRegWrite
        = self.worker.poll.eventsRegWrite.insert tk .serverStreamWrite)
    (reading : after.worker.serverReadingStreams = self.worker.serverReadingStreams)
    (writing
      : after.worker.serverWritingStreams = self.worker.serverWritingStreams.insert tk value)
    (casket : after.worker.serverCasketResponses = self.worker.serverCasketResponses)
    (handled : ∀ {other}, other ≠ tk → other ∈ handling self.phase → other ∈ handling after.phase)
    (apart : tk ∉ self.worker.serverCasketResponses.keys)
    : after.Registered := by
  refine registered.touched
    { registry := fun different => registry ▸ AList.lookup_insert_ne different
      write := fun different => write ▸ AList.lookup_insert_ne different
      reading := fun _ => reading ▸ .rfl
      writing := fun different => writing ▸ mem_keys_insert.trans (or_iff_right different)
      casket := fun _ => casket ▸ .rfl
      handled } ⟨?_, ?_, ?_⟩
  · intro interest looked
    rw [registry, AList.lookup_insert] at looked
    refine .inl (.inr ⟨(Option.some.inj looked).symm, .inl ?_⟩)
    rw [writing]
    exact mem_keys_insert.mpr (.inl rfl)
  · rw [write, AList.lookup_insert]
    exact fun _ => nofun
  · rw [casket]
    exact fun member => absurd member apart

/-- A handled result leaves the registrations right, one case for each rule. -/
theorem Settles.registered {res : ActionResult} {result : Except IoError Unit}
    {phase : WorkerPhase} (settles : { self with phase }.Settles bincode res result after)
    (popped : self.phase.nextResult = some (res, phase)) (registered : self.Registered)
    (once : (self.holdings.map Prod.fst).Nodup)
    : after.Registered := by
  have apart {tk : Token} {tcpStream : TcpStream} (held : res.held? = some (tk, tcpStream))
      : tk ∉ self.worker.serverReadingStreams.keys ∧ tk ∉ self.worker.serverPendingStreams.keys
        ∧ tk ∉ self.worker.serverWritingStreams.keys
        ∧ tk ∉ self.worker.serverCasketResponses.keys := by
    have none := held_apart popped once held
    rw [mem_owners, not_or, not_or, not_or] at none
    exact none
  have others {tk other : Token} {tcpStream : TcpStream}
      (held : res.held? = some (tk, tcpStream)) (different : other ≠ tk)
      (member : other ∈ handling self.phase) : other ∈ handling phase := by
    refine (handled_popped popped member).resolve_left ?_
    rintro ⟨stream, is⟩
    rw [held] at is
    exact different (Prod.mk.inj (Option.some.inj is)).1.symm
  have all (held : res.held? = none) {other : Token} (member : other ∈ handling self.phase)
      : other ∈ handling phase := by
    refine (handled_popped popped member).resolve_left ?_
    rintro ⟨stream, is⟩
    rw [held] at is
    cases is
  cases settles with
  | answered held _ _ forgets =>
      obtain ⟨-, -, writing, casket⟩ := apart held
      refine registered.touched
        { registry := forgets.others
          write := forgets_write forgets
          reading := fun _ => .rfl
          writing := fun _ => .rfl
          casket := fun _ => .rfl
          handled := others held } ⟨?_, ?_, ?_⟩
      · intro interest looked
        have gone := forgets.gone.symm.trans looked
        cases gone
      · exact fun member => absurd member writing
      · exact fun member => absurd member casket
  | lost waits forgets =>
      obtain ⟨-, writing, casket⟩ := pending_apart (once_owners once) (mem_keys_of_lookup waits)
      refine registered.touched
        { registry := forgets.others
          write := forgets_write forgets
          reading := fun _ => .rfl
          writing := fun _ => .rfl
          casket := fun _ => .rfl
          handled := fun _ => all rfl } ⟨?_, ?_, ?_⟩
      · intro interest looked
        have gone := forgets.gone.symm.trans looked
        cases gone
      · exact fun member => absurd member writing
      · exact fun member => absurd member casket
  | accepted =>
      obtain ⟨-, -, apart⟩ := apart rfl
      exact registered.reads rfl rfl rfl rfl rfl (others rfl) apart
  | reading =>
      obtain ⟨-, -, apart⟩ := apart rfl
      exact registered.reads rfl rfl rfl rfl rfl (others rfl) apart
  | queued =>
      obtain ⟨-, -, writing, casket⟩ := apart rfl
      refine registered.touched
        { registry := fun different => AList.lookup_erase_ne different
          write := fun _ => rfl
          reading := fun _ => .rfl
          writing := fun _ => .rfl
          casket := fun _ => .rfl
          handled := others rfl } ⟨?_, ?_, ?_⟩
      · intro interest looked
        have gone := (AList.lookup_erase _ _).symm.trans looked
        cases gone
      · exact fun member => absurd member writing
      · exact fun member => absurd member casket
  | responding waits =>
      obtain ⟨-, -, casket⟩ := pending_apart (once_owners once) (mem_keys_of_lookup waits)
      exact registered.writes rfl rfl rfl rfl rfl (fun _ => all rfl) casket
  | writing =>
      obtain ⟨-, -, -, casket⟩ := apart rfl
      exact registered.writes rfl rfl rfl rfl rfl (others rfl) casket
  | @casket act tk tcpStream _ is =>
      have held : ActionResult.held? (.ok act) = some (tk, tcpStream) := by
        rcases is with rfl | rfl <;> rfl
      obtain ⟨-, -, writing, -⟩ := apart held
      refine registered.touched
        { registry := fun different => AList.lookup_insert_ne different
          write := fun different => AList.lookup_insert_ne different
          reading := fun _ => .rfl
          writing := fun _ => .rfl
          casket := fun different => mem_keys_insert.trans (or_iff_right different)
          handled := others held } ⟨?_, ?_, ?_⟩
      · intro interest looked
        obtain rfl := Option.some.inj ((AList.lookup_insert _).symm.trans looked)
        exact .inl (.inr ⟨rfl, .inr (mem_keys_insert.mpr (.inl rfl))⟩)
      · exact fun member => absurd member writing
      · intro _ looked
        cases (AList.lookup_insert _).symm.trans looked
  | started =>
      exact
        { waits := fun looked => (registered.waits looked).imp_right (all rfl)
          writing := registered.writing
          casket := registered.casket }

-----------------------------------------------------------------------------------------
-- Events and timeouts
-----------------------------------------------------------------------------------------

/-- Pushed results are handled as well. -/
theorem mem_handled_push {phase : WorkerPhase} {more : List ActionResult}
    (collects : phase.collects = true)
    (member : tk ∈ handling phase ∨ ∃ res ∈ more, ∃ stream, res.held? = some (tk, stream))
    : tk ∈ handling (phase.pushResults more) := by
  rw [handling, WorkerPhase.workerResults_pushResults collects, List.filterMap_append,
    List.map_append, List.mem_append]
  refine member.imp_right ?_
  rintro ⟨res, isIn, stream, held⟩
  exact List.mem_map.mpr ⟨_, List.mem_filterMap.mpr ⟨res, isIn, held⟩, rfl⟩

/-- A step that leaves the poller alone and takes streams out of the maps to handle them. -/
structure Lifts (before after : WorkerLoop) : Prop where
  registry : after.worker.poll.registry = before.worker.poll.registry
  write : after.worker.poll.eventsRegWrite = before.worker.poll.eventsRegWrite
  reading
    : ∀ {tk}, tk ∈ before.worker.serverReadingStreams.keys →
        tk ∈ after.worker.serverReadingStreams.keys ∨ tk ∈ handling after.phase
  writing
    : ∀ {tk}, tk ∈ before.worker.serverWritingStreams.keys →
        tk ∈ after.worker.serverWritingStreams.keys ∨ tk ∈ handling after.phase
  casket
    : ∀ {tk}, tk ∈ before.worker.serverCasketResponses.keys →
        tk ∈ after.worker.serverCasketResponses.keys ∨ tk ∈ handling after.phase
  wrote
    : ∀ {tk}, tk ∈ after.worker.serverWritingStreams.keys →
        tk ∈ before.worker.serverWritingStreams.keys
  refused
    : ∀ {tk}, tk ∈ after.worker.serverCasketResponses.keys →
        tk ∈ before.worker.serverCasketResponses.keys
  handled : ∀ {tk}, tk ∈ handling before.phase → tk ∈ handling after.phase

/-- Such a step leaves the registrations right. -/
theorem Lifts.registered (lifts : self.Lifts after) (registered : self.Registered)
    : after.Registered where
  waits := by
    intro tk interest looked
    rw [lifts.registry] at looked
    rcases registered.waits looked with waits | handled
    · rcases waits with ⟨is, reading⟩ | ⟨is, writing | casket⟩
      · exact (lifts.reading reading).imp_left fun there => .inl ⟨is, there⟩
      · exact (lifts.writing writing).imp_left fun there => .inr ⟨is, .inl there⟩
      · exact (lifts.casket casket).imp_left fun there => .inr ⟨is, .inr there⟩
    · exact .inr (lifts.handled handled)
  writing := by
    intro tk member
    rw [lifts.write]
    exact registered.writing (lifts.wrote member)
  casket := by
    intro tk member
    rw [lifts.write]
    exact registered.casket (lifts.refused member)

/-- A step that leaves the maps alone lifts nothing. -/
theorem Lifts.still (registry : after.worker.poll.registry = self.worker.poll.registry)
    (write : after.worker.poll.eventsRegWrite = self.worker.poll.eventsRegWrite)
    (reading : after.worker.serverReadingStreams = self.worker.serverReadingStreams)
    (writing : after.worker.serverWritingStreams = self.worker.serverWritingStreams)
    (casket : after.worker.serverCasketResponses = self.worker.serverCasketResponses)
    (handled : ∀ {tk}, tk ∈ handling self.phase → tk ∈ handling after.phase)
    : self.Lifts after where
  registry
  write
  reading member := .inl (reading ▸ member)
  writing member := .inl (writing ▸ member)
  casket member := .inl (casket ▸ member)
  wrote member := writing ▸ member
  refused member := casket ▸ member
  handled

/-- An event takes the stream it finds out of its map, to handle it. -/
theorem Delivers.lifts {ev : Event} (delivers : self.Delivers cfg bincode tk ev after)
    (collects : self.phase.collects = true)
    : self.Lifts after := by
  have push {more : List ActionResult} {tk : Token} (member : tk ∈ handling self.phase)
      : tk ∈ handling (self.phase.pushResults more) :=
    mem_handled_push collects (.inl member)
  have erased {α : Type} {map : TokenMap α} {res : ActionResult} {tcpStream : TcpStream}
      (held : res.held? = some (tk, tcpStream)) {other : Token} (member : other ∈ map.keys)
      : other ∈ (map.erase tk).keys ∨ other ∈ handling (self.phase.pushResults [res]) := by
    by_cases same : other = tk
    · subst same
      exact .inr
        (mem_handled_push collects (.inr ⟨res, List.mem_singleton_self _, tcpStream, held⟩))
    · exact .inl (mem_keys_erase.mpr ⟨same, member⟩)
  have kept {α : Type} {map : TokenMap α} {other : Token} (member : other ∈ (map.erase tk).keys)
      : other ∈ map.keys :=
    (mem_keys_erase.mp member).2
  cases delivers with
  | serverStreamRead found gives =>
      exact ⟨rfl, rfl, erased gives.held, .inl, .inl, id, id, push⟩
  | serverStreamWrite found gives =>
      exact ⟨rfl, rfl, .inl, erased gives.held, .inl, kept, id, push⟩
  | casketResponseWrite found gives =>
      exact ⟨rfl, rfl, .inl, .inl, erased gives.held, id, kept, push⟩
  | refused | newStreamFd | pollPythonResponses => exact .still rfl rfl rfl rfl rfl push
  | requestReadTimeout | pythonCodeTimeout =>
      refine .still rfl rfl rfl rfl rfl fun member => ?_
      rw [handling] at member ⊢
      exact (WorkerPhase.workerResults_pushTimeout self.phase tk _).symm ▸ member
  | ctrlC | unixStreamRead | unixStreamWrite | queuedRequests =>
      exact .still rfl rfl rfl rfl rfl id

/-- A timeout leaves the registrations right: the stream of one that was being read is
deregistered.
-/
theorem Expires.registered {timeout : Timeout} (expires : self.Expires tk timeout after)
    (collects : self.phase.collects = true) (registered : self.Registered)
    : after.Registered := by
  cases expires with
  | stale => exact registered
  | requestRead found =>
      refine registered.touched
        { registry := fun different => AList.lookup_erase_ne different
          write := fun _ => rfl
          reading := fun different => mem_keys_erase.trans (and_iff_right different)
          writing := fun _ => .rfl
          casket := fun _ => .rfl
          handled := fun _ member => mem_handled_push collects (.inl member) }
        ⟨?_, registered.writing, registered.casket⟩
      intro interest looked
      have gone := (AList.lookup_erase _ _).symm.trans looked
      cases gone
  | pythonCode found =>
      suffices lifts : self.Lifts _ from lifts.registered registered
      exact .still rfl rfl rfl rfl rfl fun member => mem_handled_push collects (.inl member)

/-- Every step leaves the registrations right. -/
theorem Takes.registered (takes : self.Takes cfg bincode input after)
    (once : (self.holdings.map Prod.fst).Nodup) (registered : self.Registered)
    : after.Registered := by
  have moved {phase : WorkerPhase} (same : phase.workerResults = self.phase.workerResults)
      : { self with phase }.Registered := by
    suffices lifts : self.Lifts { self with phase } from lifts.registered registered
    refine .still rfl rfl rfl rfl rfl fun member => ?_
    rw [handling] at member ⊢
    exact same.symm ▸ member
  cases takes with
  | top stands goes =>
      rw [loopTop_goes goes rfl]
      suffices lifts : self.Lifts _ from lifts.registered registered
      refine .still rfl rfl rfl rfl rfl fun member => ?_
      rw [handling, stands] at member
      cases member
  | tick stands _ ticked =>
      obtain ⟨reads, writes, signals, -, draws, -⟩ := Poller.tick_delivers ticked
      have nothing {tk : Token} : tk ∉ handling self.phase := by
        rw [handling, stands]
        exact List.not_mem_nil
      exact
        { waits := fun looked => by
            rw [withPoll, draws.registry] at looked
            exact .inl ((registered.waits looked).resolve_right nothing)
          writing := fun member looked => registered.writing member (draws.writes.kept looked)
          casket := fun member looked => registered.casket member (draws.writes.kept looked) }
  | event stands delivers =>
      refine (delivers.lifts rfl).registered (moved ?_)
      rw [stands]
      rfl
  | timeout stands expires =>
      refine expires.registered rfl (moved ?_)
      rw [stands]
      rfl
  | reregistered stands =>
      have write {tk : Token} {ev : Event} (other : ev ≠ .unixStreamWrite)
          (looked
            : (self.reregisterUnix (.ok ())).worker.poll.eventsRegWrite.lookup tk = some ev)
          : self.worker.poll.eventsRegWrite.lookup tk = some ev := by
        unfold reregisterUnix at looked
        dsimp only at looked
        split at looked
        · by_cases same : tk = unixStreamToken
          · subst same
            exact absurd (Option.some.inj ((AList.lookup_insert _).symm.trans looked)).symm other
          · exact (AList.lookup_insert_ne same).symm.trans looked
        · exact looked
      have nothing {tk : Token} : tk ∉ handling self.phase := by
        rw [handling, stands]
        exact List.not_mem_nil
      exact
        { waits := fun looked => .inl ((registered.waits looked).resolve_right nothing)
          writing := fun member looked => registered.writing member (write nofun looked)
          casket := fun member looked => registered.casket member (write nofun looked) }
  | result popped settles => exact settles.registered popped registered once
  | delivered stands | acted stands | expired stands | settled stands =>
      exact moved (stands ▸ rfl)
  | socket | codeStart | respond | threadDies =>
      exact ⟨registered.waits, registered.writing, registered.casket⟩

-----------------------------------------------------------------------------------------
-- What the events find
-----------------------------------------------------------------------------------------

/-- A stream that is reported before the poll waits for what is reported. -/
theorem waits_watched {interested : Interest → Bool} (unpolled : self.phase.unpolled = true)
    (registered : self.Registered) (watched : self.Watched interested tk)
    : tk = unixStreamToken ∧ interested self.unixInterest = true
      ∨ ∃ interest, self.Waits tk interest ∧ interested interest = true := by
  refine watched.imp_right fun any => ?_
  obtain ⟨interest, looked, is⟩ := (Option.any_eq_true _ _).mp any
  refine ⟨interest, (registered.waits looked).resolve_right ?_, is⟩
  rw [handling]
  cases stands : self.phase with
  | top | ticking => exact List.not_mem_nil
  | _ => rw [stands] at unpolled; cases unpolled

/-- An event for a stream that is reported readable finds it. -/
theorem finds_read {ev : Event} (unpolled : self.phase.unpolled = true)
    (registered : self.Registered) (foresees : self.Foresees) (wired : self.worker.poll.Wired)
    (looked : self.worker.poll.eventsRegRead.lookup tk = some ev)
    (watched : self.Watched Interest.readable tk)
    : self.Finds (tk, ev) := by
  rcases wired.read looked with rfl | rfl
  · trivial
  · rcases waits_watched unpolled registered watched with ⟨rfl, -⟩ | ⟨interest, waits, is⟩
    · rw [(foresees.unix unpolled).1] at looked
      cases looked
    · rcases waits with ⟨-, reading⟩ | ⟨rfl, -⟩
      · exact reading
      · cases is

/-- So does one that is reported writable. -/
theorem finds_write {ev : Event} (unpolled : self.phase.unpolled = true)
    (registered : self.Registered) (foresees : self.Foresees) (wired : self.worker.poll.Wired)
    (looked : self.worker.poll.eventsRegWrite.lookup tk = some ev)
    (watched : self.Watched Interest.writable tk)
    : self.Finds (tk, ev) := by
  rcases waits_watched unpolled registered watched with ⟨rfl, is⟩ | ⟨interest, waits, is⟩
  · rw [(foresees.unix unpolled).2.1 is] at looked
    obtain rfl := Option.some.inj looked
    trivial
  · rcases waits with ⟨rfl, -⟩ | ⟨-, writing | casket⟩
    · cases is
    · rcases wired.write looked with rfl | rfl | rfl
      · trivial
      · exact writing
      · exact absurd looked (registered.writing writing)
    · rcases wired.write looked with rfl | rfl | rfl
      · trivial
      · exact absurd looked (registered.casket casket)
      · exact casket

/-- An event that takes no stream looks for none. -/
theorem finds_of_not_takes {item : Token × Event} (not : takesStream item = false)
    : self.Finds item := by
  obtain ⟨tk, ev⟩ := item
  cases ev with
  | serverStreamRead | serverStreamWrite | casketResponseWrite => cases not
  | _ => trivial

theorem filter_takesStream {events : List (Token × Event)}
    (none : ∀ item ∈ events, takesStream item = false)
    : events.filter takesStream = [] :=
  List.filter_eq_nil_iff.mpr fun item member => Bool.eq_false_iff.mp (none item member)

/-- With no events left there is nothing to find. -/
theorem foresees_idle (none : self.phase.eventsBuf = []) (polled : self.phase.unpolled = false)
    : self.Foresees where
  unix unpolled := by
    rw [polled] at unpolled
    cases unpolled
  found := by
    rw [none]
    exact fun _ member => absurd member List.not_mem_nil
  once := by
    rw [none]
    exact .nil

/-- The events at the top of the loop take no stream. -/
theorem loopTop_foresees (stands : self.phase = .top) (goes : self.finished = false)
    (foresees : self.Foresees)
    : self.loopTop.Foresees := by
  rw [loopTop_goes goes rfl]
  have none
      : ∀ item
          ∈ (takeStreamFds self.worker.msgBuf.streamFds.length self.worker.msgBuf).1.map
              streamEvent
            ++ self.polls,
          takesStream item = false := by
    intro item member
    rcases List.mem_append.mp member with stream | poll
    · obtain ⟨stream, -, rfl⟩ := List.mem_map.mp stream
      rfl
    · rcases mem_polls poll with rfl | rfl <;> rfl
  obtain ⟨read, write, -⟩ := foresees.unix (stands ▸ rfl)
  refine ⟨fun _ => ⟨read, write, none⟩, fun item member => finds_of_not_takes (none item member),
    ?_⟩
  dsimp only [note, WorkerPhase.eventsBuf]
  rw [filter_takesStream none]
  exact .nil

/-- The events of a tick that take a stream are drawn from the two maps. -/
theorem tick_takes {events delivered : List (Token × Event)} {poll : Poller}
    {now : SystemTime} {popped : List TimerEntry} {polled : Except IoError (List MioEvent)}
    (stands : self.phase = .ticking events) (pops : self.worker.poll.Pops now popped)
    (ticked : self.worker.poll.tick events now popped polled = .ok (poll, .ok delivered))
    (wired : self.worker.poll.Wired) (foresees : self.Foresees)
    : ∃ reads writes,
        { self.worker.poll with timerq := self.worker.poll.timerq.filter (now < ·.timeout) }.Draws
            poll (polled.toOption.getD []) reads writes
        ∧ (delivered.filter takesStream).Perm ((reads ++ writes).filter takesStream) := by
  obtain ⟨reads, writes, signals, order, draws, signal⟩ := Poller.tick_delivers ticked
  have waited : ∀ item ∈ events, takesStream item = false := by
    have none := (foresees.unix (stands ▸ rfl)).2.2
    rw [stands] at none
    exact none
  have timers
      : ∀ item ∈ popped.map fun entry => (entry.token, entry.event),
          takesStream item = false := by
    intro item member
    obtain ⟨entry, there, rfl⟩ := List.mem_map.mp member
    have armed : entry ∈ self.worker.poll.timerq := (List.mem_filter.mp (pops.1.mem_iff.mp there)).1
    rcases wired.timerq entry armed with timeout | timeout <;> rw [takesStream, timeout] <;> rfl
  have interrupted : ∀ item ∈ signals, takesStream item = false := by
    intro item member
    rw [signal item member]
    rfl
  refine ⟨reads, writes, draws, (order.filter _).trans ?_⟩
  rw [List.filter_append, List.filter_append, List.filter_append, filter_takesStream waited,
    filter_takesStream timers, filter_takesStream interrupted, List.append_nil,
    List.append_nil, List.nil_append]

/-- What a tick draws is reported, so the events find their streams; each stream has one
event of a kind.
-/
theorem tick_foresees {events delivered : List (Token × Event)} {poll : Poller}
    {now : SystemTime} {popped : List TimerEntry} {polled : Except IoError (List MioEvent)}
    (stands : self.phase = .ticking events) (pops : self.worker.poll.Pops now popped)
    (ticked : self.worker.poll.tick events now popped polled = .ok (poll, .ok delivered))
    (reports : self.Reports (.tick now popped polled)) (wired : self.worker.poll.Wired)
    (registered : self.Registered) (foresees : self.Foresees)
    : { self.withPoll poll with phase := .events delivered [] [] }.Foresees := by
  obtain ⟨reads, writes, draws, drawn⟩ := tick_takes stands pops ticked wired foresees
  have unpolled : self.phase.unpolled = true := stands ▸ rfl
  have watched {mioEv : MioEvent} (member : mioEv ∈ polled.toOption.getD [])
      : (mioEv.readable = true → self.Watched Interest.readable mioEv.token)
        ∧ (mioEv.writable = true → self.Watched Interest.writable mioEv.token) := by
    cases polled with
    | error e => cases member
    | ok mioEvents => exact reports mioEv member
  have read {item : Token × Event} (member : item ∈ reads) : self.Finds item := by
    obtain ⟨looked, mioEv, there, same, is⟩ := draws.reads.found member
    exact finds_read unpolled registered foresees wired looked (same ▸ (watched there).1 is)
  have write {item : Token × Event} (member : item ∈ writes) : self.Finds item := by
    obtain ⟨looked, mioEv, there, same, is⟩ := draws.writes.found member
    exact finds_write unpolled registered foresees wired looked (same ▸ (watched there).2 is)
  have apart {item : Token × Event} (first : item ∈ reads) (second : item ∈ writes) : False := by
    rcases wired.read (draws.reads.found first).1 with is | is <;>
      rcases wired.write (draws.writes.found second).1 with other | other | other <;>
      exact absurd (is.symm.trans other) nofun
  refine ⟨nofun, ?_, ?_⟩
  · intro item member
    cases takes : takesStream item with
    | false => exact finds_of_not_takes takes
    | true =>
        have there := drawn.mem_iff.mp (List.mem_filter.mpr ⟨member, takes⟩)
        rcases List.mem_append.mp (List.mem_filter.mp there).1 with first | second
        · exact read first
        · exact write second
  · dsimp only [WorkerPhase.eventsBuf]
    rw [drawn.nodup_iff]
    refine List.Nodup.filter _ (List.nodup_append.mpr ⟨?_, ?_, ?_⟩)
    · exact .of_map _ draws.reads.once
    · exact .of_map _ draws.writes.once
    · rintro first member second other rfl
      exact apart member other

/-- An event that is handled takes its own stream, and leaves those of the other events. -/
theorem Delivers.finds_iff {ev : Event} {item : Token × Event}
    (delivers : self.Delivers cfg bincode tk ev after) (takes : takesStream item = true)
    : after.Finds item ↔ item ≠ (tk, ev) ∧ self.Finds item := by
  obtain ⟨other, ev'⟩ := item
  have erased {α : Type} {map : TokenMap α} (same : ev' = ev)
      : other ∈ (map.erase tk).keys ↔ (other, ev') ≠ (tk, ev) ∧ other ∈ map.keys := by
    rw [mem_keys_erase, same, ne_eq, ne_eq, Prod.mk.injEq, and_iff_left rfl]
  have kept {found : Prop} (different : ev' ≠ ev) : found ↔ (other, ev') ≠ (tk, ev) ∧ found :=
    (and_iff_right fun same => different (Prod.mk.inj same).2).symm
  cases delivers with
  | serverStreamRead =>
      cases ev' with
      | serverStreamRead => exact erased rfl
      | _ => exact kept nofun
  | serverStreamWrite =>
      cases ev' with
      | serverStreamWrite => exact erased rfl
      | _ => exact kept nofun
  | casketResponseWrite =>
      cases ev' with
      | casketResponseWrite => exact erased rfl
      | _ => exact kept nofun
  | _ =>
      cases ev' with
      | serverStreamRead | serverStreamWrite | casketResponseWrite => exact kept nofun
      | _ => cases takes

/-- It leaves the events that wait, too. -/
theorem Delivers.eventsBuf {ev : Event} (delivers : self.Delivers cfg bincode tk ev after)
    : after.phase.eventsBuf = self.phase.eventsBuf := by
  cases delivers with
  | refused | newStreamFd | serverStreamRead | pollPythonResponses | serverStreamWrite
  | casketResponseWrite =>
      exact WorkerPhase.eventsBuf_pushResults _ _
  | requestReadTimeout | pythonCodeTimeout => exact WorkerPhase.eventsBuf_pushTimeout _ _ _
  | _ => rfl

theorem Delivers.unpolled {ev : Event} (delivers : self.Delivers cfg bincode tk ev after)
    : after.phase.unpolled = self.phase.unpolled := by
  cases delivers with
  | refused | newStreamFd | serverStreamRead | pollPythonResponses | serverStreamWrite
  | casketResponseWrite =>
      exact WorkerPhase.unpolled_pushResults _ _
  | requestReadTimeout | pythonCodeTimeout => exact WorkerPhase.unpolled_pushTimeout _ _ _
  | _ => rfl

/-- Every step foresees what the events find. -/
theorem Takes.foresees (takes : self.Takes cfg bincode input after)
    (reports : self.Reports input) (wired : self.worker.poll.Wired)
    (registered : self.Registered) (foresees : self.Foresees)
    : after.Foresees := by
  cases takes with
  | top stands goes => exact loopTop_foresees stands goes foresees
  | tick stands pops ticked =>
      exact tick_foresees stands pops ticked reports wired registered foresees
  | @event tk ev evs tmos results io _ stands delivers =>
      obtain ⟨-, found, once⟩ := foresees
      rw [stands] at found once
      have waits := delivers.eventsBuf
      refine ⟨?_, ?_, ?_⟩
      · rw [delivers.unpolled]
        exact nofun
      · rw [waits]
        intro item member
        cases takes : takesStream item with
        | false => exact finds_of_not_takes takes
        | true =>
            have there := found item (List.mem_cons_of_mem _ member)
            refine (delivers.finds_iff takes).mpr ⟨?_, there⟩
            rintro rfl
            -- The same event would be there twice.
            have twice : (tk, ev) ∈ evs.filter takesStream := List.mem_filter.mpr ⟨member, takes⟩
            dsimp only [WorkerPhase.eventsBuf] at once
            rw [List.filter_cons_of_pos takes] at once
            exact (List.nodup_cons.mp once).1 twice
      · rw [waits]
        exact once.sublist ((List.sublist_cons_self _ _).filter _)
  | timeout stands expires =>
      cases expires with
      | stale | requestRead | pythonCode => exact foresees_idle rfl rfl
  | reregistered stands =>
      refine ⟨fun _ => ⟨?_, ?_, fun _ => nofun⟩, fun _ => nofun, .nil⟩
      · unfold reregisterUnix
        dsimp only
        split
        · exact AList.lookup_insert _
        · exact AList.lookup_insert _
      · unfold reregisterUnix
        dsimp only
        intro writable
        rw [if_pos writable]
        exact AList.lookup_insert _
  | result popped settles =>
      obtain ⟨-, -, -, none, -⟩ := WorkerPhase.nextResult_spec popped
      refine foresees_idle ?_ ?_
      · rw [settles.phase]
        exact none
      · rw [settles.phase]
        exact WorkerPhase.nextResult_unpolled popped
  | delivered stands => exact foresees_idle rfl rfl
  | acted stands => exact foresees_idle rfl rfl
  | expired stands => exact foresees_idle rfl rfl
  | settled stands => exact foresees_idle rfl rfl
  | socket | codeStart | respond | threadDies =>
      exact ⟨foresees.unix, foresees.found, foresees.once⟩

-----------------------------------------------------------------------------------------
-- Whole runs
-----------------------------------------------------------------------------------------

theorem registered_new (cfg : Config) : (WorkerLoop.new cfg).Registered where
  waits := nofun
  writing := nofun
  casket := nofun

theorem foresees_new (cfg : Config) : (WorkerLoop.new cfg).Foresees where
  unix _ := ⟨AList.lookup_insert _, nofun, nofun⟩
  found := nofun
  once := .nil

/-- With distinct tokens every run whose loop has not ended foresees what its events find. -/
theorem owned_reach {state : WorkerLoop}
    (run : Reach (step cfg crates bincode) Reports (.new cfg) state)
    (runs : state.phase.running = true)
    : state.Conserves bincode ∧ state.Accounts
      ∧ (((total came state.trace).map Prod.fst).Nodup → state.Registered ∧ state.Foresees) := by
  refine running_reach
    (fun state =>
      state.Conserves bincode ∧ state.Accounts
      ∧ (((total came state.trace).map Prod.fst).Nodup → state.Registered ∧ state.Foresees))
    ⟨conserves_new cfg bincode, accounts_new cfg, fun _ => ⟨registered_new cfg, foresees_new cfg⟩⟩
    ?_ run runs
  rintro before input after ⟨conserves, accounts, earlier⟩ reports takes
  refine ⟨(takes.shifts accounts.wired).conserves conserves, takes.accounts accounts, ?_⟩
  intro distinct
  have fewer := (takes.ledger accounts.wired accounts.timely).came
  have was : ((total came before.trace).map Prod.fst).Nodup := Multiset.nodup_of_le fewer distinct
  obtain ⟨registered, foresees⟩ := earlier was
  exact
    ⟨takes.registered (conserves.once was) registered,
      takes.foresees reports accounts.wired registered foresees⟩

/-- The token of a stream is known to the message buffer. -/
theorem Conserves.held_known (conserves : self.Conserves bincode)
    (distinct : ((total came self.trace).map Prod.fst).Nodup)
    (held : tk ∈ self.holdings.map Prod.fst)
    : tk ∈ self.worker.msgBuf.serverFds.keys := by
  have tokens := conserves.tokens distinct
  rw [tokens] at distinct
  have received : tk ∈ (total came self.trace).map Prod.fst := by
    rw [tokens]
    exact Multiset.mem_add.mpr (.inl held)
  refine (conserves.told tk received).resolve_left ?_
  exact Multiset.disjoint_left.mp (Multiset.nodup_add.mp distinct).2.2 held

/-- Every look-up of a stream or of its descriptor finds it. -/
theorem Stops.found {phase : WorkerPhase} (stops : self.Stops cfg crates bincode input phase)
    (conserves : self.Conserves bincode) (accounts : self.Accounts)
    (distinct : ((total came self.trace).map Prod.fst).Nodup) (foresees : self.Foresees)
    {panic : Panic}
    (lookup
      : panic ∈ [.readingStream, .writingStream, .casketResponse, .pendingStream, .serverFd])
    : phase ≠ .panicked panic := by
  have outer : panic.inner = false := by
    simp only [List.mem_cons, List.not_mem_nil, or_false] at lookup
    rcases lookup with rfl | rfl | rfl | rfl | rfl <;> rfl
  have known {tk : Token} (held : tk ∈ self.holdings.map Prod.fst)
      (missing : self.worker.msgBuf.serverFds.lookup tk = none) : False :=
    not_mem_keys_of_lookup missing (conserves.held_known distinct held)
  rintro rfl
  cases stops with
  | tick _ failed =>
      rw [Poller.tick_inner failed] at outer
      cases outer
  | @event tk ev evs _ _ _ _ stands breaks =>
      have found := foresees.found (tk, ev) (by rw [stands]; exact List.mem_cons_self)
      cases breaks.lacks outer with
      | readingStream missing => exact not_mem_keys_of_lookup missing found
      | writingStream missing => exact not_mem_keys_of_lookup missing found
      | casketResponse missing => exact not_mem_keys_of_lookup missing found
      | uncounted => simp at lookup
  | result popped misses =>
      cases misses with
      | @serverFd _ _ _ tk tcpStream held missing =>
          refine known ?_ missing
          rw [holdings, inFlight_nextResult popped, held, Multiset.map_add, Multiset.map_add]
          exact Multiset.mem_add.mpr
            (.inl (Multiset.mem_add.mpr (.inl (Multiset.mem_singleton_self tk))))
      | unanswered waits missing =>
          refine known ?_ missing
          rw [holdings, Multiset.map_add, map_fst_mapped]
          refine Multiset.mem_add.mpr (.inr (mem_owners.mpr (.inr (.inl ?_))))
          exact mem_keys_of_lookup waits
      | @pendingStream tk _ _ _ missing =>
          have exact := accounts.exact distinct
          have answered : tk ∈ self.ledger.answering := by
            rw [ledger, (pops_result popped).handled]
            exact Multiset.mem_add.mpr (.inl (Multiset.mem_singleton_self tk))
          have waits := exact.mem_waiting_of_answering accounts.balanced distinct answered
          exact not_mem_keys_of_lookup missing (List.mem_toFinset.mp waits)
      | readTimeout | codeTimeout => simp at lookup

/-- The tokens that were answered are those of the responses, by induction on the trace. -/
theorem total_told (trace : List WorkerEffect)
    : total told trace = ((responses trace).map Response.token : List Token) := by
  induction trace with
  | nil => rfl
  | cons effect rest ih =>
      rw [total_cons, ih, responses, responses]
      cases effect with
      | answered ending response => rfl
      | _ => exact zero_add _

/-- At the top of the loop all streams are in the maps. -/
theorem Conserves.ownsTokens (conserves : self.Conserves bincode)
    (distinct : ((total came self.trace).map Prod.fst).Nodup) (stands : self.phase = .top)
    : self.OwnsTokens bincode := by
  have tokens := conserves.tokens distinct
  have mapped : self.holdings.map Prod.fst = owners self.worker := by
    rw [holdings, stands, Multiset.map_add, map_fst_mapped]
    exact zero_add _
  have both := distinct
  rw [tokens, total_told, mapped] at both
  obtain ⟨once, -, apart⟩ := Multiset.nodup_add.mp both
  refine ⟨?_, ?_, conserves.frames⟩
  · intro tk received unanswered
    rw [tokens, total_told, mapped] at received
    have owned := (Multiset.mem_add.mp received).resolve_right unanswered
    exact ⟨Multiset.count_eq_one_of_mem once owned, conserves.held_known distinct (mapped ▸ owned)⟩
  · intro tk answered
    have gone : tk ∉ owners self.worker := fun owned =>
      Multiset.disjoint_left.mp apart owned answered
    exact ⟨gone, fun known => gone (mapped ▸ conserves.known tk known)⟩

/-- A step that ends the loop tells the server nothing. -/
theorem Passes.silent {effect : WorkerEffect} (passes : self.Passes effect)
    : effect.response? = none := by
  cases effect with
  | answered => cases passes
  | _ => rfl

/-- With distinct tokens and reports for what is registered, whatever calls fail: each received
token is owned by one map until it is answered, answered once, and every look-up finds what it
looks for. Witness: streams are conserved, and the events that are polled find their streams.
-/
theorem tokens_owned (cfg : Config) (crates : Crates) (bincode : Bincode)
    : ∀ state,
        Reach (step cfg crates bincode) Reports (.new cfg) state →
        ((total came state.trace).map Prod.fst).Nodup →
        (state.phase = .top → state.OwnsTokens bincode)
        ∧ ((responses state.trace).map Response.token).Nodup
        ∧ ∀ panic
            ∈ [Panic.readingStream, .writingStream, .casketResponse, .pendingStream, .serverFd],
            state.phase ≠ .panicked panic := by
  intro state run distinct
  cases runs : state.phase.running with
  | true =>
      obtain ⟨conserves, -, -⟩ := owned_reach run runs
      refine ⟨conserves.ownsTokens distinct, ?_, ?_⟩
      · have tokens := distinct
        rw [conserves.tokens distinct, total_told] at tokens
        exact (Multiset.nodup_add.mp tokens).2.1
      · rintro panic - stopped
        rw [stopped] at runs
        cases runs
  | false =>
      obtain ⟨before, input, ended⟩ := stopped_reach run runs
      obtain ⟨conserves, accounts, owned⟩ := owned_reach ended.run ended.runs
      obtain ⟨effects, trace, passes⟩ := ended.leaves.trace
      have same : counts state.trace = counts before.trace := by
        rw [trace]
        exact counts_idle fun effect member => (passes effect member).idle
      have was : ((total came before.trace).map Prod.fst).Nodup := by
        have tokens : (counts before.trace).came.Nodup := same ▸ distinct
        exact tokens
      refine ⟨?_, ?_, ?_⟩
      · intro stands
        rw [stands] at runs
        cases runs
      · have unsent : responses effects = [] :=
          List.filterMap_eq_nil_iff.mpr fun effect member => (passes effect member).silent
        have told : responses state.trace = responses before.trace := by
          rw [trace, responses, List.filterMap_append]
          exact (congrArg _ unsent).trans (List.append_nil _)
        have tokens := was
        rw [conserves.tokens was, total_told, ← told] at tokens
        exact (Multiset.nodup_add.mp tokens).2.1
      · exact fun panic lookup => ended.stops.found conserves accounts was (owned was).2 lookup

/-- The gateway timeout of the race is written, which answers its token. -/
def refusing : List WorkerInput :=
  racing
  ++ WorkerInput.turn 10000000000 [] [⟨6, false, true⟩]
      [{ WorkerEventIo.quiet with write := .ok (http504Response.length - 10) }] 1 0 0

theorem tokens_owned_racing
    : ∃ state : WorkerLoop,
        (total came state.trace).map Prod.fst = {5, 6}
        ∧ (responses state.trace).map Response.token = [6]
        ∧ state.OwnsTokens .fixint := by
  have runs
      : (exec (step (.default "casket") (.onHead "0") .fixint) Reports
          (.new (.default "casket")) refusing).map
          (fun state =>
            ((total came state.trace).map Prod.fst,
              (responses state.trace).map Response.token, state.phase.isTop))
        = some ({5, 6}, [6], true) := by
    decide +kernel
  obtain ⟨state, done, out⟩ := Option.map_eq_some_iff.mp runs
  obtain ⟨tokens, rest⟩ := Prod.mk.inj out
  obtain ⟨answered, stands⟩ := Prod.mk.inj rest
  have distinct : ((total came state.trace).map Prod.fst).Nodup := by
    rw [tokens]
    decide
  obtain ⟨owned, -⟩ :=
    tokens_owned (.default "casket") (.onHead "0") .fixint state (Reach.of_exec _ done) distinct
  exact ⟨state, tokens, answered, owned (WorkerPhase.eq_top stands)⟩

end WorkerLoop
end Casket
