import Casket.Worker.Ownership

/-! The two tables of events mirror the registrations. A registration stores the event for its
stream and only a tick takes it out, so an entry stays behind when a stream is deregistered
while its event is still stored: when a read timeout finds the stream being read.
-/

namespace Casket

open Lib WorkerEffect

namespace WorkerInput

/-- Every call on the registry succeeds. -/
def succeeds : WorkerInput → Bool
  | .action result _ => result.isOk
  | .timeout result => result.isOk
  | .reregister result => result.isOk
  | _ => true

/-- One poll reports each way a source is ready once. -/
def ReportsOnce : WorkerInput → Prop
  | .tick _ _ (.ok mioEvents) =>
      Poller.ReportedOnce (·.readable) mioEvents ∧ Poller.ReportedOnce (·.writable) mioEvents
  | _ => True

instance (input : WorkerInput) : Decidable input.ReportsOnce :=
  match input with
  | .tick _ _ (.ok _) => inferInstanceAs (Decidable (_ ∧ _))
  | .tick _ _ (.error _) | .top | .event _ | .action .. | .timeout _ | .reregister _ | .advance
  | .socket _ | .codeStart .. | .respond .. | .threadDies _ =>
      isTrue trivial

end WorkerInput

namespace WorkerLoop

-----------------------------------------------------------------------------------------
-- What is promised and what is mirrored
-----------------------------------------------------------------------------------------

/-- `mio` reports what is registered, once in a poll, and all calls on the registry succeed. -/
def Regular (self : WorkerLoop) (input : WorkerInput) : Prop :=
  self.Reports input ∧ input.ReportsOnce ∧ input.succeeds = true

instance (self : WorkerLoop) (input : WorkerInput) : Decidable (self.Regular input) :=
  inferInstanceAs (Decidable (_ ∧ _))

/-- A read timeout finds its stream being read. -/
def cutsReading (self : WorkerLoop) (input : WorkerInput) : Bool :=
  match self.phase, input with
  | .timeouts ((tk, .requestRead) :: _) _, .timeout _ =>
      (self.worker.serverReadingStreams.lookup tk).isSome
  | _, _ => false

/-- The tables have an entry for a token exactly while its stream is registered for that
readiness. The stored event names the map that holds the stream, and nothing is stored for a
token that is pending or answered.
-/
structure Mirrors (state : WorkerLoop) (tk : Token) : Prop where
  read
    : tk ∈ state.worker.poll.eventsRegRead.keys
      ↔ (state.worker.poll.registry.lookup tk).any Interest.readable = true
  write
    : tk ∈ state.worker.poll.eventsRegWrite.keys
      ↔ (state.worker.poll.registry.lookup tk).any Interest.writable = true
  reading
    : ∀ {ev}, state.worker.poll.eventsRegRead.lookup tk = some ev →
        ev = .serverStreamRead ∧ tk ∈ state.worker.serverReadingStreams.keys
  writing
    : ∀ {ev}, state.worker.poll.eventsRegWrite.lookup tk = some ev →
        ev = .serverStreamWrite ∧ tk ∈ state.worker.serverWritingStreams.keys
        ∨ ev = .casketResponseWrite ∧ tk ∈ state.worker.serverCasketResponses.keys
  nothing
    : tk ∈ state.worker.serverPendingStreams.keys
        ∨ tk ∈ (responses state.trace).map Response.token →
      tk ∉ state.worker.poll.eventsRegRead.keys ∧ tk ∉ state.worker.poll.eventsRegWrite.keys

/-- The table an event is stored in. -/
def table (self : WorkerLoop) : Event → TokenMap Event
  | .unixStreamRead => self.worker.poll.eventsRegRead
  | .serverStreamRead => self.worker.poll.eventsRegRead
  | _ => self.worker.poll.eventsRegWrite

/-- What a stream is registered for while its event is stored. -/
def awaited : Event → Interest
  | .serverStreamRead => ⟨true, false⟩
  | _ => ⟨false, true⟩

/-- An event is stored for the unix stream, or for a stream in the map it looks into. -/
def Belongs (self : WorkerLoop) : Token × Event → Prop
  | (tk, .unixStreamRead) => tk = unixStreamToken
  | (tk, .unixStreamWrite) => tk = unixStreamToken
  | item => self.Finds item

/-- The streams in the maps are registered and their events are stored, or drawn by the tick
and then stored no longer; no other events are stored.
-/
structure Tabled (state : WorkerLoop) : Prop where
  armed
    : ∀ {tk ev}, takesStream (tk, ev) = true → state.Finds (tk, ev) →
        state.worker.poll.registry.lookup tk = some (awaited ev)
        ∧ ((state.table ev).lookup tk = some ev ∨ (tk, ev) ∈ state.phase.eventsBuf)
  drawn
    : ∀ {tk ev}, takesStream (tk, ev) = true → (tk, ev) ∈ state.phase.eventsBuf →
        (state.table ev).lookup tk = none
  proper : ∀ {tk ev}, (state.table ev).lookup tk = some ev → state.Belongs (tk, ev)

variable {cfg : Config} {crates : Crates} {bincode : Bincode} {self after : WorkerLoop}
  {input : WorkerInput} {tk : Token} {ev : Event} {item : Token × Event}

/-- An event of a stream belongs where it finds the stream. -/
theorem belongs_of_takes (takes : takesStream item = true)
    : self.Belongs item ↔ self.Finds item := by
  obtain ⟨tk, ev⟩ := item
  cases ev with
  | unixStreamRead | unixStreamWrite => cases takes
  | _ => exact .rfl

/-- Where the other events belong does not depend on the maps. -/
theorem belongs_of_not_takes (not : takesStream item = false)
    : after.Belongs item ↔ self.Belongs item := by
  obtain ⟨tk, ev⟩ := item
  cases ev with
  | serverStreamRead | serverStreamWrite | casketResponseWrite => cases not
  | _ => exact .rfl

/-- A stream in none of the three maps is found by no event. -/
theorem not_finds
    (apart
      : tk ∉ self.worker.serverReadingStreams.keys ∧ tk ∉ self.worker.serverWritingStreams.keys
        ∧ tk ∉ self.worker.serverCasketResponses.keys)
    (takes : takesStream (tk, ev) = true)
    : ¬ self.Finds (tk, ev) := by
  obtain ⟨reading, writing, casket⟩ := apart
  cases ev with
  | serverStreamRead => exact reading
  | serverStreamWrite => exact writing
  | casketResponseWrite => exact casket
  | _ => cases takes

-----------------------------------------------------------------------------------------
-- Steps that store nothing, and steps that store one event
-----------------------------------------------------------------------------------------

/-- A step that leaves the tables alone and the maps, and the registrations of what they hold. -/
theorem Tabled.keeps (tabled : self.Tabled) (tables : ∀ ev, after.table ev = self.table ev)
    (finds : ∀ item, after.Finds item ↔ self.Finds item)
    (registry
      : ∀ {tk ev}, takesStream (tk, ev) = true → self.Finds (tk, ev) →
          after.worker.poll.registry.lookup tk = self.worker.poll.registry.lookup tk)
    (waits
      : ∀ item, takesStream item = true →
          (item ∈ after.phase.eventsBuf ↔ item ∈ self.phase.eventsBuf))
    : after.Tabled where
  armed := by
    intro tk ev takes found
    have before := (finds _).mp found
    rw [registry takes before, tables, waits _ takes]
    exact tabled.armed takes before
  drawn := by
    intro tk ev takes member
    rw [tables]
    exact tabled.drawn takes ((waits _ takes).mp member)
  proper := by
    intro tk ev looked
    rw [tables] at looked
    have belongs := tabled.proper looked
    cases takes : takesStream (tk, ev) with
    | false => exact (belongs_of_not_takes takes).mp belongs
    | true =>
        rw [belongs_of_takes takes] at belongs ⊢
        exact (finds _).mpr belongs

/-- A stream that was in no map is registered and put in the map of its event. -/
theorem Tabled.stores (tabled : self.Tabled) (takes : takesStream (tk, ev) = true)
    (registry
      : after.worker.poll.registry = self.worker.poll.registry.insert tk (awaited ev))
    (stored : after.table ev = (self.table ev).insert tk ev)
    (tables
      : ∀ other,
          after.table other = self.table other
          ∨ after.table other = (self.table other).insert tk ev)
    (finds
      : ∀ {item}, takesStream item = true →
          (after.Finds item ↔ item = (tk, ev) ∨ self.Finds item))
    (apart : ∀ {other}, takesStream (tk, other) = true → ¬ self.Finds (tk, other))
    (was : self.phase.eventsBuf = []) (none : after.phase.eventsBuf = [])
    : after.Tabled where
  armed := by
    intro other ev' takes' found
    rcases (finds takes').mp found with same | before
    · obtain ⟨rfl, rfl⟩ := Prod.mk.inj same
      rw [registry, stored]
      exact ⟨AList.lookup_insert _, .inl (AList.lookup_insert _)⟩
    · have different : other ≠ tk := by
        rintro rfl
        exact apart takes' before
      obtain ⟨registered, entry⟩ := tabled.armed takes' before
      rw [was] at entry
      have there := entry.resolve_right List.not_mem_nil
      refine ⟨?_, .inl ?_⟩
      · rw [registry, AList.lookup_insert_ne different]
        exact registered
      · rcases tables ev' with same | inserted
        · rw [same]
          exact there
        · rw [inserted, AList.lookup_insert_ne different]
          exact there
  drawn := by
    intro other ev' _ member
    rw [none] at member
    cases member
  proper := by
    intro other ev' looked
    have earlier
        : other = tk ∧ ev' = ev ∨ (self.table ev').lookup other = some ev' := by
      rcases tables ev' with same | inserted
      · exact .inr (same ▸ looked)
      · rw [inserted] at looked
        exact (lookup_insert_cases looked).imp_right And.right
    rcases earlier with ⟨rfl, rfl⟩ | before
    · exact (belongs_of_takes takes).mpr ((finds takes).mpr (.inl rfl))
    · have belongs := tabled.proper before
      cases takes' : takesStream (other, ev') with
      | false => exact (belongs_of_not_takes takes').mp belongs
      | true =>
          rw [belongs_of_takes takes'] at belongs ⊢
          exact (finds takes').mpr (.inr belongs)

/-- Which table an event for reading is stored in. -/
theorem table_insert_read
    (read
      : after.worker.poll.eventsRegRead = self.worker.poll.eventsRegRead.insert tk ev)
    (write : after.worker.poll.eventsRegWrite = self.worker.poll.eventsRegWrite) (other : Event)
    : after.table other = self.table other
      ∨ after.table other = (self.table other).insert tk ev := by
  cases other with
  | unixStreamRead | serverStreamRead => exact .inr read
  | _ => exact .inl write

/-- So for writing. -/
theorem table_insert_write
    (read : after.worker.poll.eventsRegRead = self.worker.poll.eventsRegRead)
    (write
      : after.worker.poll.eventsRegWrite = self.worker.poll.eventsRegWrite.insert tk ev)
    (other : Event)
    : after.table other = self.table other
      ∨ after.table other = (self.table other).insert tk ev := by
  cases other with
  | unixStreamRead | serverStreamRead => exact .inl read
  | _ => exact .inr write

theorem table_same (read : after.worker.poll.eventsRegRead = self.worker.poll.eventsRegRead)
    (write : after.worker.poll.eventsRegWrite = self.worker.poll.eventsRegWrite) (ev : Event)
    : after.table ev = self.table ev := by
  cases ev with
  | unixStreamRead | serverStreamRead => exact read
  | _ => exact write

-----------------------------------------------------------------------------------------
-- Results
-----------------------------------------------------------------------------------------

theorem answer_poll (self : WorkerLoop) (ending : Ending)
    (responded : Except Panic (WorkerMsgBuffer × Response)) (gone : WorkerEffect)
    : (self.answer ending responded gone).worker.poll = self.worker.poll := by
  cases responded <;> rfl

/-- A stream that is given up when its call succeeds leaves the tables as they are. -/
theorem handleResult_table {res : ActionResult} {lines : List WorkerEffect} {ending : Ending}
    {gone : WorkerEffect} (ends : res.Ends (.ok ()) lines ending gone) (now : SystemTime)
    (ev : Event)
    : (self.handleResult cfg bincode res (.ok ()) now).table ev = self.table ev := by
  have same {noted : WorkerLoop} {ending : Ending}
      {responded : Except Panic (WorkerMsgBuffer × Response)} {gone : WorkerEffect}
      (read : noted.worker.poll.eventsRegRead = self.worker.poll.eventsRegRead)
      (write : noted.worker.poll.eventsRegWrite = self.worker.poll.eventsRegWrite)
      : (noted.answer ending responded gone).table ev = self.table ev := by
    have poll := answer_poll noted ending responded gone
    exact table_same (poll ▸ read) (poll ▸ write) ev
  cases ends with
  | streamEOF | doneWrite | casketDone => exact same rfl rfl
  | @error error =>
      obtain ⟨error, tk, tcpStream⟩ := error
      cases error <;> exact same rfl rfl

/-- The stream of an insertion is found by its event. -/
theorem finds_insertReading {tcpStream : TcpStream} {reader : Reader}
    (takes : takesStream item = true)
    : (self.insertReading tk tcpStream reader).Finds item
      ↔ item = (tk, .serverStreamRead) ∨ self.Finds item := by
  obtain ⟨other, ev⟩ := item
  cases ev with
  | serverStreamRead =>
      exact mem_keys_insert.trans (or_congr_left (by rw [Prod.mk.injEq, and_iff_left rfl]))
  | serverStreamWrite | casketResponseWrite => exact (or_iff_right nofun).symm
  | _ => cases takes

theorem finds_insertWriting {tcpStream : TcpStream} {writer : Writer}
    (takes : takesStream item = true)
    : (self.insertWriting tk tcpStream writer).Finds item
      ↔ item = (tk, .serverStreamWrite) ∨ self.Finds item := by
  obtain ⟨other, ev⟩ := item
  cases ev with
  | serverStreamWrite =>
      exact mem_keys_insert.trans (or_congr_left (by rw [Prod.mk.injEq, and_iff_left rfl]))
  | serverStreamRead | casketResponseWrite => exact (or_iff_right nofun).symm
  | _ => cases takes

theorem finds_insertCasket {tcpStream : TcpStream} {casketResp : CasketResponse}
    (takes : takesStream item = true)
    : (self.insertCasket tk tcpStream casketResp).Finds item
      ↔ item = (tk, .casketResponseWrite) ∨ self.Finds item := by
  obtain ⟨other, ev⟩ := item
  cases ev with
  | casketResponseWrite =>
      exact mem_keys_insert.trans (or_congr_left (by rw [Prod.mk.injEq, and_iff_left rfl]))
  | serverStreamRead | serverStreamWrite => exact (or_iff_right nofun).symm
  | _ => cases takes

/-- A handled result keeps the tables exact, one case for each rule: its stream is in no map,
so nothing is stored for it.
-/
theorem Settles.tabled {res : ActionResult} {phase : WorkerPhase}
    (settles : { self with phase }.Settles bincode res (.ok ()) after)
    (popped : self.phase.nextResult = some (res, phase))
    (once : (self.holdings.map Prod.fst).Nodup)
    (given
      : ∀ {lines ending gone},
          res.Ends (.ok ()) lines ending gone → ∀ ev, after.table ev = self.table ev)
    (tabled : self.Tabled)
    : after.Tabled := by
  obtain ⟨-, -, was, none, -⟩ := WorkerPhase.nextResult_spec popped
  have apart {tk : Token} {tcpStream : TcpStream} (held : res.held? = some (tk, tcpStream))
      {ev : Event} (takes : takesStream (tk, ev) = true) : ¬ self.Finds (tk, ev) := by
    have nowhere := held_apart popped once held
    rw [mem_owners, not_or, not_or, not_or] at nowhere
    exact not_finds ⟨nowhere.1, nowhere.2.2⟩ takes
  have waits (item : Token × Event) (_ : takesStream item = true)
      : item ∈ phase.eventsBuf ↔ item ∈ self.phase.eventsBuf := by
    rw [none, was]
  cases settles with
  | answered held ends _ forgets =>
      refine tabled.keeps (given ends) (fun _ => .rfl) ?_ waits
      intro other ev takes found
      refine forgets.others ?_
      rintro rfl
      exact apart held takes found
  | @queued tk =>
      refine tabled.keeps (table_same rfl rfl) (fun _ => .rfl) ?_ waits
      intro other ev takes found
      refine AList.lookup_erase_ne ?_
      rintro rfl
      exact apart rfl takes found
  | @accepted tk | @reading tk =>
      have takes : takesStream (tk, .serverStreamRead) = true := rfl
      exact tabled.stores takes rfl rfl (table_insert_read rfl rfl) finds_insertReading
        (apart rfl) was none
  | @writing tk =>
      have takes : takesStream (tk, .serverStreamWrite) = true := rfl
      exact tabled.stores takes rfl rfl (table_insert_write rfl rfl) finds_insertWriting
        (apart rfl) was none
  | @responding tk _ _ pending =>
      have takes : takesStream (tk, .serverStreamWrite) = true := rfl
      have nowhere := pending_apart (once_owners once) (mem_keys_of_lookup pending)
      exact tabled.stores takes rfl rfl (table_insert_write rfl rfl) finds_insertWriting
        (not_finds nowhere) was none
  | @casket act tk tcpStream _ is =>
      have held : ActionResult.held? (.ok act) = some (tk, tcpStream) := by
        rcases is with rfl | rfl <;> rfl
      have takes : takesStream (tk, .casketResponseWrite) = true := rfl
      exact tabled.stores takes rfl rfl (table_insert_write rfl rfl) finds_insertCasket
        (apart held) was none
  | started => exact tabled.keeps (table_same rfl rfl) (fun _ => .rfl) (fun _ _ => rfl) waits

-----------------------------------------------------------------------------------------
-- Events and ticks
-----------------------------------------------------------------------------------------

/-- An event was drawn, so its stream leaves the map when nothing is stored for it. -/
theorem Delivers.tabled {evs : List (Token × Event)} {tmos : List (Token × Timeout)}
    {results : List ActionResult} (stands : self.phase = .events ((tk, ev) :: evs) tmos results)
    (delivers : { self with phase := .events evs tmos results }.Delivers cfg bincode tk ev after)
    (tabled : self.Tabled)
    : after.Tabled := by
  obtain ⟨armed, drawn, proper⟩ := tabled
  rw [stands] at armed drawn
  have poll := delivers.poll
  have tables (ev : Event) : after.table ev = self.table ev :=
    table_same (congrArg Poller.eventsRegRead poll) (congrArg Poller.eventsRegWrite poll) ev
  have waits : after.phase.eventsBuf = evs := delivers.eventsBuf
  refine ⟨?_, ?_, ?_⟩
  · intro other ev' takes found
    obtain ⟨different, before⟩ := (delivers.finds_iff takes).mp found
    obtain ⟨registered, entry⟩ := armed takes before
    refine ⟨poll ▸ registered, ?_⟩
    rw [tables, waits]
    exact entry.imp_right fun member => (List.mem_cons.mp member).resolve_left different
  · intro other ev' takes member
    rw [waits] at member
    rw [tables]
    exact drawn takes (List.mem_cons_of_mem _ member)
  · intro other ev' looked
    rw [tables] at looked
    have belongs := proper looked
    cases takes : takesStream (other, ev') with
    | false => exact (belongs_of_not_takes takes).mp belongs
    | true =>
        rw [belongs_of_takes takes] at belongs ⊢
        refine (delivers.finds_iff takes).mpr ⟨?_, belongs⟩
        intro same
        obtain ⟨rfl, rfl⟩ := Prod.mk.inj same
        rw [drawn takes List.mem_cons_self] at looked
        cases looked

/-- A tick takes the entries it draws out of the tables and leaves the others. -/
theorem tick_tabled {events delivered : List (Token × Event)} {poll : Poller}
    {now : SystemTime} {popped : List TimerEntry} {polled : Except IoError (List MioEvent)}
    (stands : self.phase = .ticking events) (pops : self.worker.poll.Pops now popped)
    (ticked : self.worker.poll.tick events now popped polled = .ok (poll, .ok delivered))
    (wired : self.worker.poll.Wired) (foresees : self.Foresees) (tabled : self.Tabled)
    : { self.withPoll poll with phase := .events delivered [] [] }.Tabled := by
  obtain ⟨reads, writes, draws, drawn⟩ := tick_takes stands pops ticked wired foresees
  have before {tk : Token} {ev : Event} (takes : takesStream (tk, ev) = true)
      : (tk, ev) ∉ self.phase.eventsBuf := by
    intro member
    rw [(foresees.unix (stands ▸ rfl)).2.2 _ member] at takes
    cases takes
  have delivers {item : Token × Event} (takes : takesStream item = true)
      : item ∈ delivered ↔ item ∈ reads ∨ item ∈ writes := by
    have same := drawn.mem_iff (a := item)
    rw [List.mem_filter, List.mem_filter, and_iff_left takes, and_iff_left takes,
      List.mem_append] at same
    exact same
  refine ⟨?_, ?_, ?_⟩
  · intro tk ev takes found
    obtain ⟨registered, entry⟩ := tabled.armed takes found
    refine ⟨draws.registry ▸ registered, ?_⟩
    rw [WorkerPhase.eventsBuf, delivers takes]
    have there := entry.resolve_right (before takes)
    cases ev with
    | serverStreamRead => exact (draws.reads.left there).imp_right .inl
    | serverStreamWrite | casketResponseWrite => exact (draws.writes.left there).imp_right .inr
    | _ => cases takes
  · intro tk ev takes member
    rcases (delivers takes).mp member with read | write
    · rcases wired.read (draws.reads.found read).1 with is | is
      · rw [takesStream, is] at takes
        cases takes
      · obtain rfl : ev = .serverStreamRead := is
        exact draws.reads.gone read
    · rcases wired.write (draws.writes.found write).1 with is | is | is
      · rw [takesStream, is] at takes
        cases takes
      · obtain rfl : ev = .serverStreamWrite := is
        exact draws.writes.gone write
      · obtain rfl : ev = .casketResponseWrite := is
        exact draws.writes.gone write
  · intro tk ev looked
    have there : (self.table ev).lookup tk = some ev := by
      cases ev with
      | unixStreamRead | serverStreamRead => exact draws.reads.kept looked
      | _ => exact draws.writes.kept looked
    exact tabled.proper there

-----------------------------------------------------------------------------------------
-- Every step
-----------------------------------------------------------------------------------------

/-- Storing the events of the unix stream leaves those of the clients as they are. -/
theorem reregisterUnix_tabled (stands : self.phase = .reregister)
    (foreign : unixStreamToken ∉ owners self.worker) (tabled : self.Tabled)
    : (self.reregisterUnix (.ok ())).Tabled := by
  have tables (ev : Event)
      : (self.reregisterUnix (.ok ())).table ev = self.table ev
        ∨ ∃ unix, (unix = .unixStreamRead ∨ unix = .unixStreamWrite)
            ∧ (self.reregisterUnix (.ok ())).table ev
              = (self.table ev).insert unixStreamToken unix := by
    unfold reregisterUnix
    dsimp only
    split
    · cases ev with
      | unixStreamRead | serverStreamRead => exact .inr ⟨_, .inl rfl, rfl⟩
      | _ => exact .inr ⟨_, .inr rfl, rfl⟩
    · cases ev with
      | unixStreamRead | serverStreamRead => exact .inr ⟨_, .inl rfl, rfl⟩
      | _ => exact .inl rfl
  have registry
      : (self.reregisterUnix (.ok ())).worker.poll.registry = self.worker.poll.registry :=
    rfl
  have finds {item : Token × Event}
      : (self.reregisterUnix (.ok ())).Finds item ↔ self.Finds item :=
    .rfl
  have others {tk : Token} {ev : Event} (takes : takesStream (tk, ev) = true)
      (found : self.Finds (tk, ev)) : tk ≠ unixStreamToken := by
    rintro rfl
    rw [mem_owners, not_or, not_or, not_or] at foreign
    exact not_finds ⟨foreign.1, foreign.2.2⟩ takes found
  refine ⟨?_, ?_, ?_⟩
  · intro tk ev takes found
    obtain ⟨registered, entry⟩ := tabled.armed takes (finds.mp found)
    rw [stands] at entry
    have there := entry.resolve_right List.not_mem_nil
    refine ⟨registry ▸ registered, .inl ?_⟩
    rcases tables ev with same | ⟨unix, -, inserted⟩
    · rw [same]
      exact there
    · rw [inserted, AList.lookup_insert_ne (others takes (finds.mp found))]
      exact there
  · intro tk ev _ member
    cases member
  · intro tk ev looked
    have belongs : (self.reregisterUnix (.ok ())).Belongs (tk, ev) ↔ self.Belongs (tk, ev) := .rfl
    rw [belongs]
    rcases tables ev with same | ⟨unix, is, inserted⟩
    · exact tabled.proper (same ▸ looked)
    · rw [inserted] at looked
      rcases lookup_insert_cases looked with ⟨rfl, rfl⟩ | ⟨-, there⟩
      · rcases is with rfl | rfl <;> rfl
      · exact tabled.proper there

/-- Every step keeps the tables exact when its call succeeds and it cuts no reading off. -/
theorem Takes.tabled (takes : self.Takes cfg bincode input after)
    (taken : self.step cfg crates bincode input = some after)
    (succeeds : input.succeeds = true) (spares : self.cutsReading input = false)
    (once : (self.holdings.map Prod.fst).Nodup)
    (foreign : unixStreamToken ∉ owners self.worker) (wired : self.worker.poll.Wired)
    (foresees : self.Foresees) (later : after.Foresees) (tabled : self.Tabled)
    : after.Tabled := by
  have idle {other : WorkerLoop} (none : other.phase.eventsBuf = [])
      (was : self.phase.eventsBuf = []) (item : Token × Event) (_ : takesStream item = true)
      : item ∈ other.phase.eventsBuf ↔ item ∈ self.phase.eventsBuf := by
    rw [none, was]
  cases takes with
  | top stands goes =>
      rw [loopTop_goes goes rfl] at later ⊢
      refine tabled.keeps (table_same rfl rfl) (fun _ => .rfl) (fun _ _ => rfl) ?_
      intro item takes
      have none := (later.unix rfl).2.2 item
      rw [takes] at none
      rw [stands]
      exact iff_of_false (fun member => nomatch none member) List.not_mem_nil
  | tick stands pops ticked => exact tick_tabled stands pops ticked wired foresees tabled
  | event stands delivers => exact delivers.tabled stands tabled
  | timeout stands expires =>
      have was : self.phase.eventsBuf = [] := by rw [stands]; rfl
      cases expires with
      | stale =>
          exact tabled.keeps (table_same rfl rfl) (fun _ => .rfl) (fun _ _ => rfl) (idle rfl was)
      | requestRead found =>
          unfold cutsReading at spares
          rw [stands] at spares
          exact absurd (Option.isSome_iff_exists.mpr ⟨_, found⟩) (Bool.eq_false_iff.mp spares)
      | pythonCode =>
          exact tabled.keeps (table_same rfl rfl) (fun _ => .rfl) (fun _ _ => rfl) (idle rfl was)
  | reregistered stands => exact reregisterUnix_tabled stands foreign tabled
  | @result res phase result now _ popped settles =>
      cases result with
      | error e => cases succeeds
      | ok =>
          rw [step_action, popped] at taken
          obtain rfl := Option.some.inj taken
          exact settles.tabled popped once (fun ends ev => handleResult_table ends now ev) tabled
  | delivered stands | acted stands | expired stands | settled stands =>
      exact tabled.keeps (table_same rfl rfl) (fun _ => .rfl) (fun _ _ => rfl)
        (idle rfl (stands ▸ rfl))
  | socket | codeStart | respond | threadDies =>
      exact tabled.keeps (table_same rfl rfl) (fun _ => .rfl) (fun _ _ => rfl) fun _ _ => .rfl

-----------------------------------------------------------------------------------------
-- Whole runs
-----------------------------------------------------------------------------------------

theorem tabled_new (cfg : Config) : (WorkerLoop.new cfg).Tabled where
  armed := by
    intro tk ev takes found
    exact absurd found (not_finds ⟨List.not_mem_nil, List.not_mem_nil, List.not_mem_nil⟩ takes)
  drawn := nofun
  proper := by
    intro tk ev looked
    cases ev with
    | unixStreamRead | serverStreamRead =>
        rcases lookup_insert_cases looked with ⟨rfl, is⟩ | ⟨-, there⟩
        · cases is <;> rfl
        · cases there
    | _ => cases looked

/-- The streams in the maps were received. -/
theorem Conserves.received (conserves : self.Conserves bincode)
    (distinct : ((total came self.trace).map Prod.fst).Nodup) (owned : tk ∈ owners self.worker)
    : tk ∈ (total came self.trace).map Prod.fst := by
  rw [conserves.tokens distinct, holdings, Multiset.map_add, map_fst_mapped]
  exact Multiset.mem_add.mpr (.inl (Multiset.mem_add.mpr (.inr owned)))

variable {state : WorkerLoop}

/-- In a regular run that cuts no reading off the tables stay exact. Witness: induction on the
run, with what every run foresees at each of its steps.
-/
theorem tabled_reach
    (run
      : Reach (step cfg crates bincode)
          (fun state input => state.Regular input ∧ state.cutsReading input = false) (.new cfg)
          state)
    (runs : state.phase.running = true)
    (distinct : (unixStreamToken ::ₘ (total came state.trace).map Prod.fst).Nodup)
    : state.Tabled := by
  induction run with
  | start => exact tabled_new cfg
  | @next before input after earlier allowed taken ih =>
      obtain ⟨⟨reports, -, succeeds⟩, spares⟩ := allowed
      have takes := step_takes taken runs
      obtain ⟨conserves, accounts, owned⟩ :=
        owned_reach (earlier.weaken fun allowed => allowed.1.1) takes.runs
      have fewer := (takes.ledger accounts.wired accounts.timely).came
      have was : (unixStreamToken ::ₘ (total came before.trace).map Prod.fst).Nodup :=
        Multiset.nodup_of_le (Multiset.cons_le_cons _ fewer) distinct
      obtain ⟨apart, once⟩ := Multiset.nodup_cons.mp was
      obtain ⟨registered, foresees⟩ := owned once
      have foreign : unixStreamToken ∉ owners before.worker :=
        fun member => apart (conserves.received once member)
      have later := takes.foresees reports accounts.wired registered foresees
      exact
        takes.tabled taken succeeds spares (conserves.once once) foreign accounts.wired foresees
          later (ih takes.runs was)

/-- What the promises of a run come to in each of its states. -/
structure Kept (bincode : Bincode) (state : WorkerLoop) : Prop where
  conserves : state.Conserves bincode
  wired : state.worker.poll.Wired
  registered : state.Registered
  foresees : state.Foresees
  tabled : state.Tabled

theorem kept_reach
    (run
      : Reach (step cfg crates bincode)
          (fun state input => state.Regular input ∧ state.cutsReading input = false) (.new cfg)
          state)
    (runs : state.phase.running = true)
    (distinct : (unixStreamToken ::ₘ (total came state.trace).map Prod.fst).Nodup)
    : state.Kept bincode := by
  obtain ⟨conserves, accounts, owned⟩ :=
    owned_reach (run.weaken fun allowed => allowed.1.1) runs
  obtain ⟨registered, foresees⟩ := owned (Multiset.nodup_cons.mp distinct).2
  exact ⟨conserves, accounts.wired, registered, foresees, tabled_reach run runs distinct⟩

/-- Before the poll a stream in a map is registered and its event is stored. -/
theorem Kept.stored (kept : state.Kept bincode) (unpolled : state.phase.unpolled = true)
    (takes : takesStream (tk, ev) = true) (found : state.Finds (tk, ev))
    : state.worker.poll.registry.lookup tk = some (awaited ev) ∧ tk ∈ (state.table ev).keys := by
  obtain ⟨registered, entry⟩ := kept.tabled.armed takes found
  refine ⟨registered, mem_keys_of_lookup (entry.resolve_right fun member => ?_)⟩
  rw [(kept.foresees.unix unpolled).2.2 _ member] at takes
  cases takes

/-- Before the poll there is an entry for every source that can be reported. -/
theorem Kept.entries (kept : state.Kept bincode) (unpolled : state.phase.unpolled = true)
    : (state.Watched Interest.readable tk → tk ∈ state.worker.poll.eventsRegRead.keys)
      ∧ (state.Watched Interest.writable tk → tk ∈ state.worker.poll.eventsRegWrite.keys) := by
  obtain ⟨read, write, -⟩ := kept.foresees.unix unpolled
  have stored {ev : Event} (takes : takesStream (tk, ev) = true) (found : state.Finds (tk, ev))
      : tk ∈ (state.table ev).keys :=
    (kept.stored unpolled takes found).2
  constructor
  · intro watched
    rcases waits_watched unpolled kept.registered watched
      with ⟨rfl, -⟩ | ⟨interest, ⟨-, reading⟩ | ⟨rfl, -⟩, is⟩
    · exact mem_keys_of_lookup read
    · exact stored (rfl : takesStream (tk, .serverStreamRead) = true) reading
    · cases is
  · intro watched
    rcases waits_watched unpolled kept.registered watched
      with ⟨rfl, is⟩ | ⟨interest, ⟨rfl, -⟩ | ⟨-, writing | casket⟩, is⟩
    · exact mem_keys_of_lookup (write is)
    · cases is
    · exact stored (rfl : takesStream (tk, .serverStreamWrite) = true) writing
    · exact stored (rfl : takesStream (tk, .casketResponseWrite) = true) casket

/-- So no tick panics. -/
theorem Kept.ticks (kept : state.Kept bincode) {events : List (Token × Event)}
    {now : SystemTime} {popped : List TimerEntry} {polled : Except IoError (List MioEvent)}
    (stands : state.phase = .ticking events) (regular : state.Regular (.tick now popped polled))
    : ∃ poll out, state.worker.poll.tick events now popped polled = .ok (poll, out) := by
  obtain ⟨reports, once, -⟩ := regular
  have unpolled : state.phase.unpolled = true := stands ▸ rfl
  cases polled with
  | error e => exact Poller.tick_total nofun nofun .nil .nil
  | ok mioEvents =>
      refine Poller.tick_total ?_ ?_ once.1 once.2
      · exact fun mioEv member is => (kept.entries unpolled).1 ((reports mioEv member).1 is)
      · exact fun mioEv member is => (kept.entries unpolled).2 ((reports mioEv member).2 is)

/-- At the top of the loop the tables mirror the registrations. -/
theorem Kept.mirrors (kept : state.Kept bincode)
    (distinct : ((total came state.trace).map Prod.fst).Nodup) (stands : state.phase = .top)
    (client : tk ≠ unixStreamToken)
    : state.Mirrors tk := by
  have unpolled : state.phase.unpolled = true := stands ▸ rfl
  have waits {interest : Interest} (looked : state.worker.poll.registry.lookup tk = some interest)
      : state.Waits tk interest := by
    refine (kept.registered.waits looked).resolve_right ?_
    rw [handling, stands]
    exact List.not_mem_nil
  have reading {ev : Event} (looked : state.worker.poll.eventsRegRead.lookup tk = some ev)
      : ev = .serverStreamRead ∧ tk ∈ state.worker.serverReadingStreams.keys := by
    rcases kept.wired.read looked with rfl | rfl
    · have belongs : state.Belongs (tk, .unixStreamRead) := kept.tabled.proper looked
      exact absurd belongs client
    · have belongs : state.Belongs (tk, .serverStreamRead) := kept.tabled.proper looked
      exact ⟨rfl, belongs⟩
  have writing {ev : Event} (looked : state.worker.poll.eventsRegWrite.lookup tk = some ev)
      : ev = .serverStreamWrite ∧ tk ∈ state.worker.serverWritingStreams.keys
        ∨ ev = .casketResponseWrite ∧ tk ∈ state.worker.serverCasketResponses.keys := by
    rcases kept.wired.write looked with rfl | rfl | rfl
    · have belongs : state.Belongs (tk, .unixStreamWrite) := kept.tabled.proper looked
      exact absurd belongs client
    · have belongs : state.Belongs (tk, .serverStreamWrite) := kept.tabled.proper looked
      exact .inl ⟨rfl, belongs⟩
    · have belongs : state.Belongs (tk, .casketResponseWrite) := kept.tabled.proper looked
      exact .inr ⟨rfl, belongs⟩
  have watched {interested : Interest → Bool}
      (is : (state.worker.poll.registry.lookup tk).any interested = true)
      : state.Watched interested tk :=
    .inr is
  refine
    { read := ⟨fun member => ?_, fun is => (kept.entries unpolled).1 (watched is)⟩
      write := ⟨fun member => ?_, fun is => (kept.entries unpolled).2 (watched is)⟩
      reading
      writing
      nothing := ?_ }
  · obtain ⟨ev, looked⟩ := exists_lookup member
    obtain ⟨rfl, found⟩ := reading looked
    rw [(kept.stored unpolled (rfl : takesStream (tk, .serverStreamRead) = true) found).1]
    rfl
  · obtain ⟨ev, looked⟩ := exists_lookup member
    rcases writing looked with ⟨rfl, found⟩ | ⟨rfl, found⟩
    · rw [(kept.stored unpolled (rfl : takesStream (tk, .serverStreamWrite) = true) found).1]
      rfl
    · rw [(kept.stored unpolled (rfl : takesStream (tk, .casketResponseWrite) = true) found).1]
      rfl
  · intro idle
    have apart
        : tk ∉ state.worker.serverReadingStreams.keys
          ∧ tk ∉ state.worker.serverWritingStreams.keys
          ∧ tk ∉ state.worker.serverCasketResponses.keys := by
      rcases idle with pending | answered
      · exact pending_apart (once_owners (kept.conserves.once distinct)) pending
      · have nowhere := ((kept.conserves.ownsTokens distinct stands).answered tk answered).1
        rw [mem_owners, not_or, not_or, not_or] at nowhere
        exact ⟨nowhere.1, nowhere.2.2⟩
    constructor
    · intro member
      obtain ⟨ev, looked⟩ := exists_lookup member
      exact apart.1 (reading looked).2
    · intro member
      obtain ⟨ev, looked⟩ := exists_lookup member
      rcases writing looked with ⟨-, found⟩ | ⟨-, found⟩
      · exact apart.2.1 found
      · exact apart.2.2 found

/-- In every regular run in which no read timeout finds its stream being read the tables mirror
the registrations, and no tick panics. Witness: the streams in the maps are those that events
are stored for, from step to step.
-/
theorem tables_mirror (cfg : Config) (crates : Crates) (bincode : Bincode)
    : ∀ state,
        Reach (step cfg crates bincode)
          (fun state input => state.Regular input ∧ state.cutsReading input = false) (.new cfg)
          state →
        (unixStreamToken ::ₘ (total came state.trace).map Prod.fst).Nodup →
        (state.phase = .top → ∀ tk ≠ unixStreamToken, state.Mirrors tk)
        ∧ ∀ events now popped polled,
            state.phase = .ticking events → state.Regular (.tick now popped polled) →
              ∃ poll out,
                state.worker.poll.tick events now popped polled = .ok (poll, out) := by
  intro state run distinct
  refine ⟨?_, ?_⟩
  · intro stands tk client
    have kept := kept_reach run (stands ▸ rfl) distinct
    exact kept.mirrors (Multiset.nodup_cons.mp distinct).2 stands client
  · intro events now popped polled stands regular
    have kept := kept_reach run (stands ▸ rfl) distinct
    exact kept.ticks stands regular

/-- A response is being written to one stream and a gateway timeout to the other. -/
theorem tables_mirror_racing
    : ∃ state : WorkerLoop,
        state.worker.poll.eventsRegWrite.lookup 5 = some .serverStreamWrite
        ∧ state.worker.poll.eventsRegWrite.lookup 6 = some .casketResponseWrite
        ∧ ∀ tk ≠ unixStreamToken, state.Mirrors tk := by
  have runs
      : (exec (step (.default "casket") (.onHead "0") .fixint)
          (fun state input => state.Regular input ∧ state.cutsReading input = false)
          (.new (.default "casket")) racing).map
          (fun state =>
            ((total came state.trace).map Prod.fst, state.phase.isTop,
              state.worker.poll.eventsRegWrite.lookup 5,
              state.worker.poll.eventsRegWrite.lookup 6))
        = some ({5, 6}, true, some .serverStreamWrite, some .casketResponseWrite) := by
    decide +kernel
  obtain ⟨state, done, out⟩ := Option.map_eq_some_iff.mp runs
  obtain ⟨tokens, rest⟩ := Prod.mk.inj out
  obtain ⟨stands, rest⟩ := Prod.mk.inj rest
  obtain ⟨first, second⟩ := Prod.mk.inj rest
  have distinct : (unixStreamToken ::ₘ (total came state.trace).map Prod.fst).Nodup := by
    rw [tokens]
    decide
  obtain ⟨mirrors, -⟩ :=
    tables_mirror (.default "casket") (.onHead "0") .fixint state (Reach.of_exec _ done) distinct
  exact ⟨state, first, second, mirrors (WorkerPhase.eq_top stands)⟩

/-- A stream is accepted, nothing is read from it, and the 408 is written. -/
def expiring : List WorkerInput :=
  WorkerInput.accepting .fixint 0 [⟨5, 7⟩] [9]
  ++ WorkerInput.turn 30000000000 [⟨5, 30000000000, .requestReadTimeout⟩] [] [.quiet] 0 1 1
  ++ WorkerInput.turn 30000000000 [] [⟨5, false, true⟩]
      [{ WorkerEventIo.quiet with write := .ok http408Response.length }] 1 0 0

/-- The event for reading is still stored after the stream was answered. -/
theorem tables_stale
    : ∃ state : WorkerLoop,
        Reach (step (.default "casket") (.onHead "0") .fixint) Regular (.new (.default "casket"))
          state
        ∧ (unixStreamToken ::ₘ (total came state.trace).map Prod.fst).Nodup
        ∧ state.phase = .top
        ∧ (responses state.trace).map Response.token = [5]
        ∧ state.worker.poll.registry.lookup 5 = none
        ∧ state.worker.poll.eventsRegRead.lookup 5 = some .serverStreamRead
        ∧ ¬ state.Mirrors 5 := by
  have runs
      : (exec (step (.default "casket") (.onHead "0") .fixint) Regular
          (.new (.default "casket")) expiring).map
          (fun state =>
            ((total came state.trace).map Prod.fst, state.phase.isTop,
              (responses state.trace).map Response.token,
              (state.worker.poll.registry.lookup 5).isNone,
              state.worker.poll.eventsRegRead.lookup 5))
        = some ({5}, true, [5], true, some .serverStreamRead) := by
    decide +kernel
  obtain ⟨state, done, out⟩ := Option.map_eq_some_iff.mp runs
  obtain ⟨tokens, rest⟩ := Prod.mk.inj out
  obtain ⟨stands, rest⟩ := Prod.mk.inj rest
  obtain ⟨answered, rest⟩ := Prod.mk.inj rest
  obtain ⟨gone, stored⟩ := Prod.mk.inj rest
  refine ⟨state, Reach.of_exec _ done, ?_, WorkerPhase.eq_top stands, answered,
    Option.isNone_iff_eq_none.mp gone, stored, ?_⟩
  · rw [tokens]
    decide
  · intro mirrors
    have nothing := (mirrors.nothing (.inr (answered ▸ List.mem_singleton_self _))).1
    exact nothing (mem_keys_of_lookup stored)

end WorkerLoop
end Casket
