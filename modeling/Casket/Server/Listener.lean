import Casket.Lib.EdgeTriggered
import Casket.Server.Shutdown

/-! The listener under an edge-triggered poll. One event makes the loop accept one
connection, however many wait in the listener's backlog.
-/

namespace Casket

open Lib

/-- The server with the connections its listener has not accepted, and what the poll knows
of the listener.
-/
structure Listening where
  server : Server
  backlog : List TcpStream
  edge : Edge

/-- A step of the server, a poll that may report the listener, or a client's doing. -/
inductive ListeningLabel where
  | server (label : ServerLabel)
  | poll (reported : Bool) (events : Option (List MioEvent)) (running : Bool)
      (now : SystemTime) (deregisters : Token → Bool)
  | connects (tcpStream : TcpStream)
  | aborts (n : Nat)

namespace Server

/-- The event at hand is the listener's. -/
def AtListener (server : Server) : Prop :=
  ∃ ev ∈ server.phase.batch.head?, ev.token = serverToken

instance (server : Server) : Decidable server.AtListener :=
  inferInstanceAs (Decidable (∃ ev ∈ server.phase.batch.head?, ev.token = serverToken))

/-- An event of the listener is at hand, or later in the batch. -/
def ListenerReported (server : Server) : Prop :=
  ∃ ev ∈ server.phase.batch, ev.token = serverToken

end Server

namespace Listening

/-- The listener is registered first, with whatever has arrived by then. -/
def new (workers : Nat) (backlog : List TcpStream) : Listening where
  server := .new workers
  backlog := backlog
  edge := Edge.idle.register (!backlog.isEmpty)

/-- The backlog after `listener.accept()`: it takes the first connection, or fails. -/
def accepted (self : Listening) (io : EventIo) : Option (List TcpStream) :=
  match io.accept with
  | none => some self.backlog
  | some tcpStream =>
      match self.backlog with
      | first :: rest => if first = tcpStream then some rest else none
      | [] => none

/-- The backlog after the event at hand, which concerns it if it is the listener's. -/
def afterEvent (self : Listening) (io : EventIo) : Option (List TcpStream) :=
  if self.server.AtListener then self.accepted io else some self.backlog

/-- What the poll knows of the listener after the call, which reports it or not. -/
def report (self : Listening) (reported : Bool) (events : List MioEvent) : Option Edge :=
  if reported then
    if ∃ ev ∈ events, ev.token = serverToken then self.edge.deliver else none
  else
    some self.edge

def step (cfg : Config) (bincode : Bincode) (self : Listening)
    : ListeningLabel → Option Listening
  | .server (.input (.poll ..)) => none
  | .server (.input (.event io)) =>
      (self.afterEvent io).bind fun backlog =>
        (self.server.step cfg bincode (.event io)).map fun server =>
          { self with server, backlog }
  | .server label =>
      (self.server.openStep cfg bincode label).map fun server => { self with server }
  | .poll reported events running now deregisters =>
      (self.report reported (events.getD [])).bind fun edge =>
        (self.server.step cfg bincode (.poll events running now deregisters)).map
          fun server =>
            let shutsDown := server.runShutdown && !self.server.runShutdown
            { self with
              server
              edge := if shutsDown && deregisters serverToken then .idle else edge }
  | .connects tcpStream =>
      some
        { self with
          backlog := self.backlog ++ [tcpStream]
          edge := self.edge.arrive }
  | .aborts n => some { self with backlog := self.backlog.eraseIdx n }

/-- Until the shutdown an event of the listener leaves no connection in the backlog, unless
another one has arrived since the event.
-/
def NothingLeft (self : Listening) : ListeningLabel → Prop
  | .server (.input (.event io)) =>
      self.server.runShutdown = false →
      self.server.AtListener →
      self.edge.pending = true ∨ self.accepted io = some []
  | _ => True

/-- No other source has the listener's token: a poll with such an event reports it. -/
def OwnToken (_ : Listening) : ListeningLabel → Prop
  | .poll reported events _ _ _ =>
      (∃ ev ∈ events.getD [], ev.token = serverToken) → reported = true
  | _ => True

instance (self : Listening) (label : ListeningLabel) : Decidable (self.NothingLeft label) :=
  match label with
  | .server (.input (.event io)) =>
      inferInstanceAs
        (Decidable
          (self.server.runShutdown = false →
            self.server.AtListener →
            self.edge.pending = true ∨ self.accepted io = some []))
  | .server (.input (.top ..)) | .server (.input (.keepAlive _)) | .server (.input .close)
  | .server (.input (.poll ..)) | .server (.input .advance) | .server (.socket ..)
  | .poll .. | .connects _ | .aborts _ => isTrue trivial

instance (self : Listening) (label : ListeningLabel) : Decidable (self.OwnToken label) :=
  match label with
  | .poll reported events _ _ _ =>
      inferInstanceAs
        (Decidable ((∃ ev ∈ events.getD [], ev.token = serverToken) → reported = true))
  | .server _ | .connects _ | .aborts _ => isTrue trivial

/-- While the loop runs and has not shut down, a waiting connection has an event to be
delivered or one to be handled.
-/
def Wakeful (self : Listening) : Prop :=
  self.server.phase.running = true →
  self.server.runShutdown = false →
  self.edge.interested = true
  ∧ (self.server.ListenerReported ∨ self.edge.Awake (self.backlog ≠ []))

variable {cfg : Config} {bincode : Bincode} {self after : Listening}

/-- Without events at hand a wakeful listener is awake. -/
theorem Wakeful.awake (wakeful : self.Wakeful) (runs : self.server.phase.running = true)
    (open_ : self.server.runShutdown = false) (empty : self.server.phase.batch = [])
    : self.edge.interested = true ∧ self.edge.Awake (self.backlog ≠ []) := by
  obtain ⟨interested, ⟨ev, member, -⟩ | awake⟩ := wakeful runs open_
  · rw [empty] at member
    cases member
  · exact ⟨interested, awake⟩

/-- An event is handled: an awake listener stays so, and its own event leaves it awake or
another one at hand.
-/
theorem Wakeful.event (wakeful : self.Wakeful) {io : EventIo} {server : Server}
    {backlog : List TcpStream} (left : self.NothingLeft (.server (.input (.event io))))
    (afterwards : self.afterEvent io = some backlog)
    (taken : self.server.step cfg bincode (.event io) = some server)
    : Wakeful { self with server, backlog } := by
  intro runs open_
  have takes := Server.step_takes taken
  obtain ⟨ev, evs, stands, rest⟩ := Server.step_event taken runs
  have elsewhere : self.server.phase ≠ .polling := by
    rw [stands]
    exact fun polling => nomatch polling
  have openBefore : self.server.runShutdown = false :=
    (takes.sameShutdown elsewhere).symm.trans open_
  obtain ⟨interested, reported⟩ := wakeful takes.runs openBefore
  refine ⟨interested, ?_⟩
  unfold afterEvent at afterwards
  split at afterwards
  · next listener =>
      -- the listener's own event: the condition says what is left
      right
      rcases left openBefore listener with pending | nothing
      · exact fun _ _ => pending
      · rw [nothing] at afterwards
        obtain rfl := Option.some.inj afterwards
        exact self.edge.awake_unready fun waits => waits rfl
  · next other =>
      obtain rfl := Option.some.inj afterwards
      rcases reported with ⟨first, member, own⟩ | awake
      · left
        rw [stands] at member
        rcases List.mem_cons.mp member with rfl | later
        · refine absurd ⟨first, ?_, own⟩ other
          rw [stands]
          rfl
        · refine ⟨first, ?_, own⟩
          simp only [rest]
          exact later
      · exact .inr awake

/-- A poll delivers the event into the batch, or leaves it. -/
theorem Wakeful.poll (wakeful : self.Wakeful) {reported running : Bool}
    {events : Option (List MioEvent)} {now : SystemTime} {deregisters : Token → Bool}
    (taken
      : self.step cfg bincode (.poll reported events running now deregisters) = some after)
    : after.Wakeful := by
  intro runs open_
  obtain ⟨edge, reports, polled⟩ := Option.bind_eq_some_iff.mp taken
  obtain ⟨server, polls, rfl⟩ := Option.map_eq_some_iff.mp polled
  have open_ : server.runShutdown = false := open_
  have takes := Server.step_takes polls
  cases takes with
  | poll stands =>
    have openBefore : self.server.runShutdown = false := by
      unfold Server.polled at open_
      split at open_
      · cases open_
      · exact open_
    have empty : self.server.phase.batch = [] := by
      rw [stands]
      rfl
    have runsBefore : self.server.phase.running = true := by
      rw [stands]
      rfl
    obtain ⟨interested, awake⟩ := wakeful.awake runsBefore openBefore empty
    simp only [open_, Bool.false_and, Bool.false_eq_true, if_false]
    unfold report at reports
    split at reports
    · split at reports
      · next member =>
          obtain ⟨-, rfl⟩ := Edge.deliver_eq_some reports
          exact ⟨interested, .inl member⟩
      · cases reports
    · obtain rfl := Option.some.inj reports
      exact ⟨interested, .inr awake⟩

/-- Other inputs of the server leave the listener alone, and are no polls. -/
theorem step_input {input : ServerInput} (other : ∀ io, input ≠ .event io)
    (taken : self.step cfg bincode (.server (.input input)) = some after)
    : ∃ server,
        self.server.step cfg bincode input = some server
        ∧ after = { self with server }
        ∧ self.server.phase ≠ .polling := by
  cases input with
  | poll => cases taken
  | event io => exact absurd rfl (other io)
  | top | keepAlive | close | advance =>
      obtain ⟨server, steps, rfl⟩ := Option.map_eq_some_iff.mp taken
      refine ⟨server, steps, rfl, ?_⟩
      intro polling
      obtain ⟨events, running, now, deregisters, polls⟩ :=
        (Server.step_takes steps).polls polling
      cases polls

/-- Every step that leaves nothing keeps the listener wakeful. Witness: one case for each
label.
-/
theorem Wakeful.stepped (wakeful : self.Wakeful) {label : ListeningLabel}
    (left : self.NothingLeft label) (taken : self.step cfg bincode label = some after)
    : after.Wakeful := by
  cases label with
  | connects tcpStream =>
      obtain rfl := Option.some.inj taken
      intro runs open_
      exact ⟨(wakeful runs open_).1, .inr (self.edge.awake_arrive _)⟩
  | aborts n =>
      obtain rfl := Option.some.inj taken
      intro runs open_
      obtain ⟨interested, reported | awake⟩ := wakeful runs open_
      · exact ⟨interested, .inl reported⟩
      · refine ⟨interested, .inr (awake.mono ?_)⟩
        rintro fewer empty
        rw [empty] at fewer
        exact fewer rfl
  | poll reported events running now deregisters => exact wakeful.poll taken
  | server label =>
      cases label with
      | socket n socket =>
          obtain ⟨server, changed, rfl⟩ := Option.map_eq_some_iff.mp taken
          obtain ⟨stream, -, rfl⟩ := Option.map_eq_some_iff.mp changed
          exact wakeful
      | input input =>
          by_cases event : ∃ io, input = .event io
          · obtain ⟨io, rfl⟩ := event
            obtain ⟨backlog, afterwards, stepped⟩ := Option.bind_eq_some_iff.mp taken
            obtain ⟨server, steps, rfl⟩ := Option.map_eq_some_iff.mp stepped
            exact wakeful.event left afterwards steps
          · have other : ∀ io, input ≠ .event io := fun io same => event ⟨io, same⟩
            obtain ⟨server, steps, rfl, elsewhere⟩ := step_input other taken
            intro runs open_
            have takes := Server.step_takes steps
            have openBefore := (takes.sameShutdown elsewhere).symm.trans open_
            have empty := Server.step_batch steps other
            obtain ⟨interested, awake⟩ := wakeful.awake takes.runs openBefore empty
            exact ⟨interested, .inr awake⟩

/-- Every state of a run that leaves nothing is wakeful. -/
theorem wakeful_reached {workers : Nat} {backlog : List TcpStream}
    (run : Reach (step cfg bincode) NothingLeft (new workers backlog) self)
    : self.Wakeful := by
  refine run.invariant Wakeful ?_ (fun wakeful left taken => wakeful.stepped left taken)
  intro _ _
  refine ⟨rfl, .inr (Edge.idle.awake_register ?_)⟩
  intro waits
  cases backlog with
  | nil => exact absurd rfl waits
  | cons first rest => rfl

end Listening

-----------------------------------------------------------------------------------------
-- Wake-ups of the listener
-----------------------------------------------------------------------------------------

/-- In a run where each event of the listener before the shutdown leaves no connection in the
backlog, or another one has arrived since the event, the loop does not wait in a poll with a
connection in the backlog and no event to be delivered for it.
-/
theorem listener_wakes (cfg : Config) (bincode : Bincode) (workers : Nat)
    (backlog : List TcpStream) {listening : Listening}
    (run
      : Reach (Listening.step cfg bincode) Listening.NothingLeft
          (Listening.new workers backlog) listening)
    (polling : listening.server.phase = .polling)
    (before : listening.server.runShutdown = false)
    : listening.backlog = [] ∨ listening.edge.pending = true := by
  have wakeful := Listening.wakeful_reached run
  have runs : listening.server.phase.running = true := by
    rw [polling]
    rfl
  have empty : listening.server.phase.batch = [] := by
    rw [polling]
    rfl
  obtain ⟨interested, awake⟩ := wakeful.awake runs before empty
  by_cases waits : listening.backlog = []
  · exact .inl waits
  · exact .inr (awake interested waits)

/-- Clients connect, the listener is reported once, and the loop goes on to its next poll. -/
def connecting (clients : List TcpStream) : List ListeningLabel :=
  let iteration : List ListeningLabel :=
    [.server (.input (.top none false fun _ => true)), .server (.input .advance),
      .server (.input .advance)]
  let io : EventIo := ⟨clients.head?, true, .ok 0, 0, .ok 0⟩
  iteration ++ clients.map .connects
  ++ [.poll true (some [⟨0, true, false⟩]) true 0 fun _ => true, .server (.input (.event io)),
    .server (.input .advance)]
  ++ iteration

/-- One client connects: at the next poll its connection has been accepted. -/
theorem listener_wakes_one
    : ∃ listening : Listening,
        listening.server.readingStreams.keys = [16777216]
        ∧ listening.server.phase = .polling
        ∧ (listening.backlog = [] ∨ listening.edge.pending = true) := by
  have runs
      : (exec (Listening.step (.default "casket") .fixint) Listening.NothingLeft (.new 1 [])
          (connecting [⟨7⟩])).map
          (fun listening =>
            (listening.server.readingStreams.keys, listening.server.phase,
              listening.server.runShutdown))
        = some ([16777216], .polling, false) := by
    decide +kernel
  obtain ⟨listening, done, out⟩ := Option.map_eq_some_iff.mp runs
  obtain ⟨accepted, rest⟩ := Prod.mk.inj out
  obtain ⟨polling, before⟩ := Prod.mk.inj rest
  have wakes :=
    listener_wakes (.default "casket") .fixint 1 [] (Reach.of_exec _ done) polling before
  exact ⟨listening, accepted, polling, wakes⟩

/-- Two clients connect before one poll: the second one is left in the backlog. -/
theorem listener_sleeps
    : ∃ listening : Listening,
        Reach (Listening.step (.default "casket") .fixint) Listening.OwnToken (.new 1 [])
          listening
        ∧ listening.server.phase = .polling
        ∧ listening.server.runShutdown = false
        ∧ listening.backlog = [⟨8⟩]
        ∧ listening.edge.pending = false := by
  have runs
      : (exec (Listening.step (.default "casket") .fixint) Listening.OwnToken (.new 1 [])
          (connecting [⟨7⟩, ⟨8⟩])).map
          (fun listening =>
            (listening.server.phase, listening.server.runShutdown, listening.backlog,
              listening.edge.pending))
        = some (.polling, false, [⟨8⟩], false) := by
    decide +kernel
  obtain ⟨listening, done, out⟩ := Option.map_eq_some_iff.mp runs
  obtain ⟨polling, rest⟩ := Prod.mk.inj out
  obtain ⟨before, rest⟩ := Prod.mk.inj rest
  obtain ⟨backlog, pending⟩ := Prod.mk.inj rest
  exact ⟨listening, Reach.of_exec _ done, polling, before, backlog, pending⟩

end Casket
