import Casket.Lib.EdgeTriggered
import Casket.Server.Coverage
import Casket.Server.Shutdown

/-! The worker sockets under an edge-triggered poll: the interest the server mirrors against
the one registered, and the response bytes that wait against the events still to come.
-/

namespace Casket

open Lib

/-- The interest a stream is registered with, if it is. -/
def StreamInterest.registered : StreamInterest → Option Interest
  | .not => none
  | .read => some ⟨true, false⟩
  | .write => some ⟨false, true⟩
  | .readWrite => some ⟨true, true⟩

/-- What the poll knows of one worker socket: its registration and its readable events. -/
structure Watch where
  interest : Option Interest
  edge : Edge
  deriving DecidableEq, Repr

namespace Watch

/-- Not registered. -/
def new : Watch := ⟨none, .idle⟩

/-- A successful call for a socket that may have bytes to be read. -/
def apply (self : Watch) (ready : Bool) : RegistryCall → Watch
  | .register interest | .reregister interest =>
      { interest := some interest
        edge := if interest.readable then self.edge.register ready else .idle }
  | .deregister => .new

/-- The call `reregister` makes for a stream, if any, and if it succeeds. -/
def reregister (self : Watch) (stream : UnixStream) (succeeds : Bool) : Watch :=
  match stream.registryCall with
  | none => self
  | some call =>
      if succeeds then self.apply (!stream.stream.toServer.isEmpty) call else self

/-- The server's mirror of the registration is right. -/
structure Mirrors (watch : Watch) (mirror : StreamInterest) : Prop where
  interest : watch.interest = mirror.registered
  interested : watch.edge.interested = mirror.registered.any (·.readable)

end Watch

/-- The server with its workers, the poll's view of each worker socket, and whether the last
reregister pass succeeded.
-/
structure Waking where
  net : Net
  watches : Nat → Watch
  registered : Bool

/-- A step of the server or of a worker, or a poll with the sockets it reports readable. -/
inductive WakingLabel where
  | net (input : NetInput)
  | poll (reported : Nat → Bool) (events : Option (List MioEvent)) (running : Bool)
      (now : SystemTime) (deregisters : Token → Bool)

/-- The bytes that wait in a worker's socket for the server. -/
def Net.unread (net : Net) (n : Nat) : Bytes :=
  ((net.server.unixStreams[n]?).map (·.stream.toServer)).getD []

/-- The number of bytes the event at hand makes the server read from socket `n`. -/
def Server.bytesRead (server : Server) (ev : MioEvent) (io : EventIo) (n : Nat) : Nat :=
  if ev.token ≠ serverToken
      ∧ server.readingStreams.lookup ev.token = none
      ∧ UnixStreams.position? server.unixStreams ev.token = some n
      ∧ ev.readable = true then
    io.read.toOption.getD 0
  else
    0

namespace Waking

def new (workers : Nat) : Waking where
  net := .new workers
  watches := fun _ => .new
  registered := false

/-- The registrations after `unix_streams.reregister(..)`. -/
def reregister (self : Waking) (registers : Token → Bool) (n : Nat) : Watch :=
  match self.net.server.unixStreams[n]? with
  | none => self.watches n
  | some stream => (self.watches n).reregister stream (registers stream.token)

/-- Every call the pass makes succeeds. -/
def allRegister (self : Waking) (registers : Token → Bool) : Bool :=
  self.net.server.unixStreams.all fun stream =>
    stream.registryCall.isNone || registers stream.token

/-- A poll reports sockets that have an event to be delivered, and puts it into the batch. -/
def Reports (self : Waking) (reported : Nat → Bool) (events : List MioEvent) : Prop :=
  ∀ entry ∈ self.net.server.unixStreams.zipIdx,
    reported entry.2 = true →
    (self.watches entry.2).edge.pending = true
    ∧ ∃ ev ∈ events, ev.token = entry.1.token ∧ ev.readable = true

instance (self : Waking) (reported : Nat → Bool) (events : List MioEvent)
    : Decidable (self.Reports reported events) :=
  inferInstanceAs
    (Decidable
      (∀ entry ∈ self.net.server.unixStreams.zipIdx,
        reported entry.2 = true →
        (self.watches entry.2).edge.pending = true
        ∧ ∃ ev ∈ events, ev.token = entry.1.token ∧ ev.readable = true))

/-- The poll's view of the sockets once it has delivered the reported events. -/
def delivered (self : Waking) (reported : Nat → Bool) (n : Nat) : Watch :=
  let watch := self.watches n
  if reported n then { watch with edge := watch.edge.deliver.getD watch.edge } else watch

/-- The poll's view of the sockets once worker `n` has put bytes into its own. -/
def arrived (self : Waking) (net : Net) (n other : Nat) : Watch :=
  let watch := self.watches other
  if other = n ∧ (self.net.unread n).length < (net.unread n).length then
    { watch with edge := watch.edge.arrive }
  else
    watch

def step (cfg : Config) (bincode : Bincode) (self : Waking) : WakingLabel → Option Waking
  | .net (.server (.poll ..)) => none
  | .net (.server (.top elapsed closeNow registers)) =>
      (self.net.step cfg bincode (.server (.top elapsed closeNow registers))).map fun net =>
        match net.server.phase with
        | .returned _ => { self with net }
        | _ =>
            { net
              watches := self.reregister registers
              registered := self.allRegister registers }
  | .net (.worker n op) =>
      (self.net.step cfg bincode (.worker n op)).map fun net =>
        { self with net, watches := self.arrived net n }
  | .net input => (self.net.step cfg bincode input).map fun net => { self with net }
  | .poll reported events running now deregisters =>
      if self.Reports reported (events.getD []) then
        (self.net.step cfg bincode (.server (.poll events running now deregisters))).map
          fun net => { self with net, watches := self.delivered reported }
      else
        none

/-- Each serialized response is shorter than 2^32 bytes. -/
def ShortResponses (bincode : Bincode) (self : Waking) : WakingLabel → Prop
  | .net (.worker n op) =>
      ∀ stream ∈ self.net.server.unixStreams[n]?,
      ∀ worker ∈ self.net.workers[n]?,
        (stream.link worker).ShortResponse bincode op
  | _ => True

/-- The event at hand, if readable, makes the server take all that waits in each socket with
its token, unless more has arrived since the event.
-/
def ReadsAll (self : Waking) : WakingLabel → Prop
  | .net (.server (.event io)) =>
      ∀ ev ∈ self.net.server.phase.batch.head?,
        ev.readable = true →
        ∀ entry ∈ self.net.server.unixStreams.zipIdx,
          entry.1.token = ev.token →
          (self.watches entry.2).edge.pending = true
          ∨ entry.1.stream.toServer.length ≤ self.net.server.bytesRead ev io entry.2
  | _ => True

/-- Both conditions. -/
def WholeReads (bincode : Bincode) (self : Waking) (label : WakingLabel) : Prop :=
  self.ShortResponses bincode label ∧ self.ReadsAll label

/-- No other source has a socket's token: a poll with such an event reports it. -/
def OwnTokens (bincode : Bincode) (self : Waking) (label : WakingLabel) : Prop :=
  self.ShortResponses bincode label
  ∧ match label with
    | .poll reported events _ _ _ =>
        ∀ entry ∈ self.net.server.unixStreams.zipIdx,
          (∃ ev ∈ events.getD [], ev.token = entry.1.token ∧ ev.readable = true) →
          reported entry.2 = true
    | .net _ => True

instance (bincode : Bincode) (self : Waking) (label : WakingLabel)
    : Decidable (self.ShortResponses bincode label) :=
  match label with
  | .net (.worker n op) =>
      inferInstanceAs
        (Decidable
          (∀ stream ∈ self.net.server.unixStreams[n]?,
            ∀ worker ∈ self.net.workers[n]?,
              (stream.link worker).ShortResponse bincode op))
  | .net (.server _) | .poll .. => isTrue trivial

instance (self : Waking) (label : WakingLabel) : Decidable (self.ReadsAll label) :=
  match label with
  | .net (.server (.event io)) =>
      inferInstanceAs
        (Decidable
          (∀ ev ∈ self.net.server.phase.batch.head?,
            ev.readable = true →
            ∀ entry ∈ self.net.server.unixStreams.zipIdx,
              entry.1.token = ev.token →
              (self.watches entry.2).edge.pending = true
              ∨ entry.1.stream.toServer.length
                ≤ self.net.server.bytesRead ev io entry.2))
  | .net (.server (.top ..)) | .net (.server (.keepAlive _)) | .net (.server .close)
  | .net (.server (.poll ..)) | .net (.server .advance) | .net (.worker ..) | .poll .. =>
      isTrue trivial

instance (bincode : Bincode) (self : Waking) (label : WakingLabel)
    : Decidable (self.WholeReads bincode label) :=
  inferInstanceAs (Decidable (_ ∧ _))

instance (bincode : Bincode) (self : Waking) (label : WakingLabel)
    : Decidable (self.OwnTokens bincode label) :=
  match label with
  | .poll reported events _ _ _ =>
      inferInstanceAs
        (Decidable
          (_ ∧ ∀ entry ∈ self.net.server.unixStreams.zipIdx,
            (∃ ev ∈ events.getD [], ev.token = entry.1.token ∧ ev.readable = true) →
            reported entry.2 = true))
  | .net _ => inferInstanceAs (Decidable (_ ∧ True))

/-- A readable event of a socket is at hand, or later in the batch. -/
def ReadableReported (self : Waking) (stream : UnixStream) : Prop :=
  ∃ ev ∈ self.net.server.phase.batch, ev.token = stream.token ∧ ev.readable = true

end Waking

/-- Between the reregister pass and the poll. -/
def ServerPhase.passed : ServerPhase → Bool
  | .keepAlive _ | .closing _ | .polling => true
  | _ => false

-----------------------------------------------------------------------------------------
-- One socket
-----------------------------------------------------------------------------------------

namespace Watch

variable {self : Watch} {stream : UnixStream} {succeeds : Bool}
  {registry : TokenMap Interest}

/-- The mirror stays right, whether a call is made and whether it succeeds. Witness: one case
for each entry of the table of calls.
-/
theorem Mirrors.reregister (mirrors : self.Mirrors stream.interest)
    : (self.reregister stream succeeds).Mirrors
        (stream.reregister succeeds registry).1.interest := by
  obtain ⟨interest, interested⟩ := mirrors
  unfold Watch.reregister UnixStream.reregister UnixStream.registryCall
  cases present : stream.interest <;> cases decide (0 < stream.numReqs)
    <;> cases stream.msgBuffer.hasDataToSend <;> cases succeeds
  all_goals
    rw [present] at interest interested
    exact ⟨by simp [present, apply, new, interest, StreamInterest.fromRw,
        StreamInterest.registered],
      by simp [present, apply, new, interested, StreamInterest.fromRw,
        StreamInterest.registered, Edge.register, Edge.idle]⟩

/-- A stream whose call, if any, succeeds has the interest it wants. -/
theorem reregister_wanted (registry : TokenMap Interest)
    (done : stream.registryCall.isNone || succeeds)
    : (stream.reregister succeeds registry).1.interest
      = StreamInterest.fromRw (0 < stream.numReqs) stream.msgBuffer.hasDataToSend := by
  unfold UnixStream.reregister
  split
  · rfl
  · next call made =>
      rw [made, Option.isNone_some, Bool.false_or] at done
      rw [if_pos done]

/-- Bytes that wait keep or get their event. -/
theorem awake_reregister (awake : self.edge.Awake (stream.stream.toServer ≠ []))
    : (self.reregister stream succeeds).edge.Awake (stream.stream.toServer ≠ []) := by
  have noticed : stream.stream.toServer ≠ [] → (!stream.stream.toServer.isEmpty) = true := by
    intro unread
    simpa using unread
  unfold Watch.reregister
  split
  · exact awake
  · next call made =>
      split
      · cases call with
        | register interest | reregister interest =>
            simp only [apply]
            split
            · exact self.edge.awake_register noticed
            · exact Edge.awake_idle _
        | deregister => exact Edge.awake_idle _
      · exact awake

/-- What a wanted interest registers for. -/
theorem fromRw_registered (pollRead pollWrite : Bool)
    : (StreamInterest.fromRw pollRead pollWrite).registered.any (·.readable) = pollRead
      ∧ (StreamInterest.fromRw pollRead pollWrite).registered.any (·.writable)
        = pollWrite := by
  cases pollRead <;> cases pollWrite <;> exact ⟨rfl, rfl⟩

end Watch
-----------------------------------------------------------------------------------------
-- What the server's steps do to the sockets
-----------------------------------------------------------------------------------------

/-- A socket after the pass is one before it, reregistered. Witness: induction on the
sockets.
-/
theorem UnixStreams.getElem?_reregister {succeeds : Token → Bool} {streams : List UnixStream}
    {registry : TokenMap Interest} {n : Nat} {after : UnixStream}
    (found : (reregister succeeds streams registry).1[n]? = some after)
    : ∃ stream earlier,
        streams[n]? = some stream
        ∧ after = (stream.reregister (succeeds stream.token) earlier).1 := by
  induction streams generalizing registry n with
  | nil => cases found
  | cons first rest ih =>
      cases n with
      | zero => exact ⟨first, registry, rfl, (Option.some.inj found).symm⟩
      | succ n => exact ih found

namespace Server

variable {cfg : Config} {bincode : Bincode} {server after : Server} {input : ServerInput}
  {workers : List WorkerMsgBuffer}

/-- The exit tests end the loop and leave the sockets, or the pass is made. -/
theorem loopTop_sockets (cfg : Config)
    (cover : UnixStreams.Cover bincode server.unixStreams workers)
    (elapsed : Option Duration) (closeNow : Bool) (registers : Token → Bool)
    : (∃ result,
        (server.loopTop cfg elapsed closeNow registers).phase = .returned result
        ∧ (server.loopTop cfg elapsed closeNow registers).unixStreams = server.unixStreams)
      ∨ ∃ tks,
          (server.loopTop cfg elapsed closeNow registers).phase = .keepAlive tks
          ∧ List.Forall₂ UnixStream.Drained
              (UnixStreams.reregister registers server.unixStreams server.registry).1
              (server.loopTop cfg elapsed closeNow registers).unixStreams := by
  rcases server.loopTop_cases cfg elapsed closeNow registers with
    starts | ⟨returns, -⟩ | ⟨time, -, -, -, returns⟩
  · obtain ⟨tks, unixStreams, started, left, -⟩ := startIteration_covers cover registers
    rw [starts, started]
    exact .inr ⟨tks, rfl, left⟩
  · rw [returns]
    exact .inl ⟨_, rfl, rfl⟩
  · rw [returns]
    exact .inl ⟨_, rfl, rfl⟩

/-- Away from the pass and the events the sockets only lose tokens. -/
theorem step_drains (cover : UnixStreams.Cover bincode server.unixStreams workers)
    (taken : server.step cfg bincode input = some after)
    (noPass : ∀ elapsed closeNow registers, input ≠ .top elapsed closeNow registers)
    (noEvent : ∀ io, input ≠ .event io)
    : List.Forall₂ UnixStream.Drained server.unixStreams after.unixStreams
      ∧ (after.phase.passed = true → server.phase.passed = true) := by
  have still : List.Forall₂ UnixStream.Drained server.unixStreams server.unixStreams :=
    List.forall₂_same.mpr fun stream _ => .refl stream
  cases step_takes taken with
  | top => exact absurd rfl (noPass _ _ _)
  | accept | dispatch | unixStream | unknown => exact absurd rfl (noEvent _)
  | keepAlive stands =>
      rw [stands]
      refine ⟨?_, fun _ => rfl⟩
      unfold Server.keepAliveStream
      split
      · exact still
      · simp only
        split
        · exact still
        · split <;> exact still
  | keptAll stands =>
      obtain ⟨tks, unixStreams, closing, left, -⟩ := takeCloseTks_covers cover
      rw [closing, stands]
      exact ⟨left, fun _ => rfl⟩
  | close stands =>
      rw [stands]
      refine ⟨?_, fun _ => rfl⟩
      unfold Server.closeStream
      split <;> exact still
  | closedAll stands =>
      rw [stands]
      exact ⟨still, fun _ => rfl⟩
  | poll stands =>
      rw [stands]
      refine ⟨?_, fun _ => rfl⟩
      unfold Server.polled
      split <;> exact still
  | handled => exact ⟨still, fun passed => nomatch passed⟩

/-- An event is handled where there is one at hand. -/
theorem step_event_stands {io : EventIo}
    (taken : server.step cfg bincode (.event io) = some after)
    : ∃ ev evs, server.phase = .events (ev :: evs) := by
  cases step_takes taken <;> exact ⟨_, _, ‹_›⟩

/-- After an event the pass is still to be made, if the loop goes on. -/
theorem step_event_passed {io : EventIo}
    (taken : server.step cfg bincode (.event io) = some after)
    : after.phase.passed = false := by
  by_cases runs : after.phase.running = true
  · obtain ⟨ev, evs, -, rest⟩ := step_event taken runs
    rw [rest]
    rfl
  · cases ends : after.phase with
    | returned | panicked => rfl
    | _ =>
        rw [ends] at runs
        exact absurd rfl runs

/-- An event of socket `n` that does not read it leaves its bytes. -/
theorem bytesRead_other {ev : MioEvent} {io : EventIo} {n : Nat}
    (other
      : ¬(ev.token ≠ serverToken
          ∧ server.readingStreams.lookup ev.token = none
          ∧ UnixStreams.position? server.unixStreams ev.token = some n
          ∧ ev.readable = true))
    : server.bytesRead ev io n = 0 :=
  if_neg other

/-- A read takes the bytes it reports off the front. -/
theorem readStream_toServer {stream next : UnixStream} {read : Except IoError Nat}
    (reads : stream.readStream bincode read = some (.ok next))
    : next.token = stream.token
      ∧ next.interest = stream.interest
      ∧ next.stream.toServer = stream.stream.toServer.drop (read.toOption.getD 0) := by
  obtain ⟨⟨result, socket⟩, received, decoded⟩ := Option.map_eq_some_iff.mp reads
  obtain ⟨⟨msgBuffer, msgs⟩, -, rfl⟩ : ∃ pair : ServerMsgBuffer × Except IoError (List Response),
      stream.msgBuffer.readUnixStream bincode result = .ok pair
      ∧ { stream with stream := socket, msgBuffer := pair.1 } = next := by
    cases read : stream.msgBuffer.readUnixStream bincode result with
    | error panic =>
        simp only [read, Except.map] at decoded
        cases decoded
    | ok pair =>
        simp only [read, Except.map] at decoded
        exact ⟨pair, rfl, Except.ok.inj decoded⟩
  refine ⟨rfl, rfl, ?_⟩
  cases read with
  | error e =>
      obtain ⟨-, rfl⟩ := Prod.mk.inj (Option.some.inj received)
      rfl
  | ok count =>
      simp only [UnixSocket.serverReads] at received
      split at received
      · obtain ⟨-, rfl⟩ := Prod.mk.inj (Option.some.inj received)
        rfl
      · cases received

/-- An event leaves each socket its interest, and takes the bytes read off its front. -/
theorem event_sockets (cover : UnixStreams.Cover bincode server.unixStreams workers)
    {ev : MioEvent} {evs : List MioEvent} {io : EventIo}
    (stands : server.phase = .events (ev :: evs))
    (taken : server.step cfg bincode (.event io) = some after) {n : Nat}
    {next : UnixStream} (found : after.unixStreams[n]? = some next)
    : ∃ stream,
        server.unixStreams[n]? = some stream
        ∧ next.token = stream.token
        ∧ next.interest = stream.interest
        ∧ next.stream.toServer
          = stream.stream.toServer.drop (server.bytesRead ev io n) := by
  have still {streams : List UnixStream} (found : streams[n]? = some next)
      (same : streams = server.unixStreams) (other : server.bytesRead ev io n = 0)
      : ∃ stream,
          server.unixStreams[n]? = some stream
          ∧ next.token = stream.token
          ∧ next.interest = stream.interest
          ∧ next.stream.toServer
            = stream.stream.toServer.drop (server.bytesRead ev io n) := by
    rw [same] at found
    exact ⟨next, found, rfl, rfl, by rw [other, List.drop_zero]⟩
  cases step_takes taken with
  | @accept first rest io at_ listener =>
      obtain ⟨rfl, rfl⟩ := List.cons.inj (ServerPhase.events.inj (stands.symm.trans at_))
      refine still found ?_ (bytesRead_other fun own => own.1 listener)
      unfold Server.acceptStream
      split
      · rfl
      · simp only
        split
        · rfl
        · split <;> rfl
  | @dispatch first rest io tcpStream at_ other waiting =>
      obtain ⟨rfl, rfl⟩ := List.cons.inj (ServerPhase.events.inj (stands.symm.trans at_))
      have unread : server.bytesRead ev io n = 0 := by
        refine bytesRead_other fun own => ?_
        rw [waiting] at own
        cases own.2.1
      unfold Server.dispatchStream at found
      simp only at found
      split at found
      · split at found
        · exact still found rfl unread
        · next sent =>
            obtain ⟨stream, least, rfl⟩ := UnixStreams.msgSendTcpStream_ok sent
            simp only [List.getElem?_set] at found
            split at found
            · next same =>
                split at found
                · obtain rfl := Option.some.inj found
                  rw [same] at least
                  exact ⟨stream, least, rfl, rfl, by rw [unread]; rfl⟩
                · cases found
            · exact still found rfl unread
      · exact still found rfl unread
  | @unixStream first rest io position stream after at_ other idle at_position there event =>
      obtain ⟨rfl, rfl⟩ := List.cons.inj (ServerPhase.events.inj (stands.symm.trans at_))
      obtain ⟨worker, -, covers⟩ := forall₂_getElem? cover.flip there
      have covers : stream.Covers bincode worker := covers
      obtain ⟨result, read, rfl⟩ := Option.map_eq_some_iff.mp event
      obtain ⟨between, rfl, same⟩ : ∃ between : UnixStream,
          result = .ok between
          ∧ between.token = stream.token
          ∧ between.interest = stream.interest
          ∧ between.stream.toServer
            = stream.stream.toServer.drop (server.bytesRead ev io position) := by
        split at read
        · next readable =>
            obtain ⟨between, rfl, -⟩ := covers.readStream read
            have takes : server.bytesRead ev io position = io.read.toOption.getD 0 :=
              if_pos ⟨other, idle, at_position, readable⟩
            rw [takes]
            exact ⟨between, rfl, readStream_toServer read⟩
        · next unreadable =>
            have takes : server.bytesRead ev io position = 0 :=
              bytesRead_other fun own => unreadable own.2.2.2
            refine ⟨stream, (Option.some.inj read).symm, rfl, rfl, ?_⟩
            rw [takes, List.drop_zero]
      simp only [List.getElem?_set] at found
      split at found
      · next here =>
          split at found
          · obtain rfl := Option.some.inj found
            subst here
            refine ⟨stream, there, ?_⟩
            split
            · exact same
            · exact same
          · cases found
      · next elsewhere =>
          refine still found rfl (bytesRead_other fun own => ?_)
          exact elsewhere (Option.some.inj (at_position.symm.trans own.2.2.1))
  | @unknown first rest io at_ other idle nowhere =>
      obtain ⟨rfl, rfl⟩ := List.cons.inj (ServerPhase.events.inj (stands.symm.trans at_))
      refine still found rfl (bytesRead_other fun own => ?_)
      rw [nowhere] at own
      cases own.2.2.1

end Server
-----------------------------------------------------------------------------------------
-- The mirror, in every run
-----------------------------------------------------------------------------------------

namespace Waking

/-- The counters cover the lanes, the mirrors are right, and after a pass that succeeded
every socket is registered for what it needs.
-/
structure Kept (bincode : Bincode) (waking : Waking) : Prop where
  cover : UnixStreams.Cover bincode waking.net.server.unixStreams waking.net.workers
  mirrors
    : ∀ (n : Nat) (stream : UnixStream),
        waking.net.server.unixStreams[n]? = some stream →
        (waking.watches n).Mirrors stream.interest
  wanted
    : waking.registered = true →
      waking.net.server.phase.passed = true →
      ∀ (n : Nat) (stream : UnixStream),
        waking.net.server.unixStreams[n]? = some stream →
        (0 < stream.numReqs → stream.interest.registered.any (·.readable) = true)
        ∧ (stream.msgBuffer.hasDataToSend = true →
            stream.interest.registered.any (·.writable) = true)

/-- Whatever waits in a socket has an event to be delivered or one to be handled. -/
def Wakeful (self : Waking) : Prop :=
  self.net.server.phase.running = true →
  ∀ (n : Nat) (stream : UnixStream),
    self.net.server.unixStreams[n]? = some stream →
    self.ReadableReported stream
    ∨ (self.watches n).edge.Awake (stream.stream.toServer ≠ [])

variable {cfg : Config} {bincode : Bincode} {self after : Waking} {workers : Nat}

/-- Without events at hand a wakeful socket is awake. -/
theorem Wakeful.awake (wakeful : self.Wakeful)
    (runs : self.net.server.phase.running = true) (empty : self.net.server.phase.batch = [])
    {n : Nat} {stream : UnixStream}
    (found : self.net.server.unixStreams[n]? = some stream)
    : (self.watches n).edge.Awake (stream.stream.toServer ≠ []) := by
  rcases wakeful runs n stream found with ⟨ev, member, -⟩ | awake
  · rw [empty] at member
    cases member
  · exact awake

/-- What is left of a socket after tokens were taken is registered as it was. -/
theorem Kept.drained (kept : self.Kept bincode) {server : Server}
    (cover : UnixStreams.Cover bincode server.unixStreams self.net.workers)
    (left : List.Forall₂ UnixStream.Drained self.net.server.unixStreams server.unixStreams)
    (passed : server.phase.passed = true → self.net.server.phase.passed = true)
    : Kept bincode { self with net := { self.net with server } } where
  cover := cover
  mirrors n next found := by
    obtain ⟨stream, there, drained⟩ := forall₂_getElem? left found
    rw [drained.interest]
    exact kept.mirrors n stream there
  wanted registered stands n next found := by
    obtain ⟨stream, there, drained⟩ := forall₂_getElem? left found
    obtain ⟨readable, writable⟩ := kept.wanted registered (passed stands) n stream there
    rw [drained.interest, drained.data]
    exact ⟨fun some_ => readable (Nat.lt_of_lt_of_le some_ drained.fewer), writable⟩

/-- Where nothing passes the pass, only the interests matter. -/
theorem Kept.same (kept : self.Kept bincode) {net : Net}
    (cover : UnixStreams.Cover bincode net.server.unixStreams net.workers)
    (interests
      : ∀ (n : Nat) (next : UnixStream),
          net.server.unixStreams[n]? = some next →
          ∃ stream : UnixStream,
            self.net.server.unixStreams[n]? = some stream ∧ next.interest = stream.interest)
    (stands : net.server.phase.passed = false)
    : Kept bincode { self with net } where
  cover := cover
  mirrors n next found := by
    obtain ⟨stream, there, same⟩ := interests n next found
    rw [same]
    exact kept.mirrors n stream there
  wanted _ passed := by
    rw [stands] at passed
    cases passed

/-- The pass sets the mirrors with the registrations. -/
theorem Kept.top (kept : self.Kept bincode) {elapsed : Option Duration} {closeNow : Bool}
    {registers : Token → Bool}
    (taken
      : self.step cfg bincode (.net (.server (.top elapsed closeNow registers))) = some after)
    : after.Kept bincode := by
  obtain ⟨net, within, rfl⟩ := Option.map_eq_some_iff.mp taken
  obtain ⟨server, steps, rfl⟩ := Option.map_eq_some_iff.mp within
  have cover := Server.step_covers kept.cover steps
  cases Server.step_takes steps with
  | top stands =>
    rcases Server.loopTop_sockets cfg kept.cover elapsed closeNow registers with
      ⟨result, returned, same⟩ | ⟨tks, passed, left⟩
    · rw [returned]
      refine kept.same cover ?_ (by rw [returned]; rfl)
      intro n next found
      rw [same] at found
      exact ⟨next, found, rfl⟩
    · rw [passed]
      refine ⟨cover, ?_, ?_⟩
      · intro n next found
        obtain ⟨registered, there, drained⟩ := forall₂_getElem? left found
        obtain ⟨stream, registry, at_, rfl⟩ := UnixStreams.getElem?_reregister there
        simp only [reregister, at_, drained.interest]
        exact (kept.mirrors n stream at_).reregister
      · intro all _ n next found
        obtain ⟨registered, there, drained⟩ := forall₂_getElem? left found
        obtain ⟨stream, registry, at_, rfl⟩ := UnixStreams.getElem?_reregister there
        have done : stream.registryCall.isNone || registers stream.token :=
          List.all_eq_true.mp all stream (List.mem_of_getElem? at_)
        have wanted := Watch.reregister_wanted registry done
        obtain ⟨interest, same⟩ :=
          stream.reregister_interest (registers stream.token) registry
        have fewer := drained.fewer
        have data := drained.data
        rw [same] at fewer data
        rw [drained.interest, wanted]
        obtain ⟨readable, writable⟩ :=
          Watch.fromRw_registered (0 < stream.numReqs) stream.msgBuffer.hasDataToSend
        refine ⟨fun some_ => ?_, fun some_ => ?_⟩
        · rw [readable]
          exact decide_eq_true (Nat.lt_of_lt_of_le some_ fewer)
        · rw [writable]
          exact data.symm.trans some_

/-- A worker's call changes what is in its socket only. -/
theorem workerStep_frame {net next : Net} {n : Nat} {op : LinkOp}
    (taken : net.workerStep bincode n op = some next)
    : ∃ stream socket,
        net.server.unixStreams[n]? = some stream
        ∧ next.server
          = { net.server with
              unixStreams :=
                net.server.unixStreams.set n { stream with stream := socket } } := by
  obtain ⟨stream, worker, link, found, -, -, -, -, rfl⟩ := Net.workerStep_inv taken
  exact ⟨stream, link.socket, found, rfl⟩

/-- A socket of which the contents changed is otherwise the same. -/
theorem getElem?_set_stream {streams : List UnixStream} {n m : Nat} {stream next : UnixStream}
    {socket : UnixSocket} (at_ : streams[n]? = some stream)
    (found : (streams.set n { stream with stream := socket })[m]? = some next)
    : ∃ before,
        streams[m]? = some before
        ∧ next.token = before.token
        ∧ next.interest = before.interest
        ∧ next.numReqs = before.numReqs
        ∧ next.msgBuffer = before.msgBuffer
        ∧ (m ≠ n → next = before) := by
  simp only [List.getElem?_set] at found
  split at found
  · next here =>
      split at found
      · obtain rfl := Option.some.inj found
        subst here
        exact ⟨stream, at_, rfl, rfl, rfl, rfl, fun apart => absurd rfl apart⟩
      · cases found
  · exact ⟨next, found, rfl, rfl, rfl, rfl, fun _ => rfl⟩

/-- Bytes that arrive in a socket do not change what it is registered for. -/
theorem mirrors_arrived {net : Net} {n m : Nat} {mirror : StreamInterest}
    (mirrors : (self.watches m).Mirrors mirror)
    : (self.arrived net n m).Mirrors mirror := by
  unfold arrived
  simp only
  split
  · exact ⟨mirrors.interest, mirrors.interested⟩
  · exact mirrors

/-- Neither does the delivery of an event. -/
theorem mirrors_delivered {reported : Nat → Bool} {n : Nat} {mirror : StreamInterest}
    (mirrors : (self.watches n).Mirrors mirror)
    : (self.delivered reported n).Mirrors mirror := by
  unfold delivered
  simp only
  split
  · refine ⟨mirrors.interest, ?_⟩
    cases delivers : (self.watches n).edge.deliver with
    | none => exact mirrors.interested
    | some edge =>
        obtain ⟨-, rfl⟩ := Edge.deliver_eq_some delivers
        exact mirrors.interested
  · exact mirrors

/-- A worker's call keeps mirrors and interests. -/
theorem Kept.worker (kept : self.Kept bincode) {n : Nat} {op : LinkOp}
    (short : self.ShortResponses bincode (.net (.worker n op)))
    (taken : self.step cfg bincode (.net (.worker n op)) = some after)
    : after.Kept bincode := by
  obtain ⟨net, steps, rfl⟩ := Option.map_eq_some_iff.mp taken
  have cover := Net.workerStep_covers kept.cover short steps
  obtain ⟨stream, socket, at_, same⟩ := workerStep_frame steps
  refine ⟨cover, ?_, ?_⟩
  · intro m next found
    simp only [same] at found
    obtain ⟨before, there, -, interest, -⟩ := getElem?_set_stream at_ found
    rw [interest]
    exact mirrors_arrived (kept.mirrors m before there)
  · intro registered passed m next found
    simp only [same] at found passed
    obtain ⟨before, there, -, interest, reqs, data, -⟩ := getElem?_set_stream at_ found
    rw [interest, reqs, data]
    exact kept.wanted registered passed m before there

/-- A poll keeps mirrors and interests. -/
theorem Kept.poll (kept : self.Kept bincode) {reported : Nat → Bool}
    {events : Option (List MioEvent)} {running : Bool} {now : SystemTime}
    {deregisters : Token → Bool}
    (taken
      : self.step cfg bincode (.poll reported events running now deregisters) = some after)
    : after.Kept bincode := by
  simp only [step] at taken
  split at taken
  · obtain ⟨net, within, rfl⟩ := Option.map_eq_some_iff.mp taken
    obtain ⟨server, steps, rfl⟩ := Option.map_eq_some_iff.mp within
    have cover := Server.step_covers kept.cover steps
    obtain ⟨left, passed⟩ := Server.step_drains kept.cover steps
      (fun _ _ _ same => nomatch same) (fun _ same => nomatch same)
    have drained := kept.drained cover left passed
    refine ⟨cover, ?_, drained.wanted⟩
    intro n next found
    exact mirrors_delivered (drained.mirrors n next found)
  · cases taken

/-- Every other step of the server keeps mirrors and interests. -/
theorem Kept.input (kept : self.Kept bincode) {input : ServerInput}
    (noPass : ∀ elapsed closeNow registers, input ≠ .top elapsed closeNow registers)
    (taken : self.step cfg bincode (.net (.server input)) = some after)
    : after.Kept bincode := by
  cases input with
  | top elapsed closeNow registers => exact absurd rfl (noPass elapsed closeNow registers)
  | poll => cases taken
  | keepAlive | close | advance =>
      obtain ⟨net, within, rfl⟩ := Option.map_eq_some_iff.mp taken
      obtain ⟨server, steps, rfl⟩ := Option.map_eq_some_iff.mp within
      obtain ⟨left, passed⟩ := Server.step_drains kept.cover steps noPass
        (fun _ same => nomatch same)
      exact kept.drained (Server.step_covers kept.cover steps) left passed
  | event io =>
      obtain ⟨net, within, rfl⟩ := Option.map_eq_some_iff.mp taken
      obtain ⟨server, steps, rfl⟩ := Option.map_eq_some_iff.mp within
      have cover := Server.step_covers kept.cover steps
      obtain ⟨ev, evs, stands⟩ := Server.step_event_stands steps
      refine kept.same cover ?_ (Server.step_event_passed steps)
      intro n next found
      obtain ⟨stream, there, -, interest, -⟩ :=
        Server.event_sockets kept.cover stands steps found
      exact ⟨stream, there, interest⟩

/-- Every step keeps mirrors and interests. Witness: one case for each label. -/
theorem Kept.stepped (kept : self.Kept bincode) {label : WakingLabel}
    (short : self.ShortResponses bincode label)
    (taken : self.step cfg bincode label = some after)
    : after.Kept bincode := by
  cases label with
  | poll => exact kept.poll taken
  | net input =>
      cases input with
      | worker n op => exact kept.worker short taken
      | server input =>
          cases input with
          | top => exact kept.top taken
          | poll => cases taken
          | keepAlive | close | event | advance =>
              refine kept.input ?_ taken
              intro elapsed closeNow registers same
              cases same

/-- A server with fresh sockets is registered for nothing and needs nothing. -/
theorem Kept.new (bincode : Bincode) (workers : Nat) : (new workers).Kept bincode where
  cover := by
    have fresh
        : ∀ ns : List Nat,
            UnixStreams.Cover bincode
              (ns.map fun n => UnixStream.new (UInt64.ofNat (n + 1)) .pair)
              (ns.map fun _ => WorkerMsgBuffer.new) := by
      intro ns
      induction ns with
      | nil => exact .nil
      | cons n rest ih => exact .cons (UnixStream.covers_new bincode _) ih
    have workers_ : List.replicate workers WorkerMsgBuffer.new
        = (List.range workers).map fun _ => WorkerMsgBuffer.new := by
      rw [List.map_const', List.length_range]
    change UnixStreams.Cover bincode _ (List.replicate workers WorkerMsgBuffer.new)
    rw [workers_]
    exact fresh (List.range workers)
  mirrors n stream found := by
    obtain ⟨m, -, rfl⟩ := List.mem_map.mp (List.mem_of_getElem? found)
    exact ⟨rfl, rfl⟩
  wanted registered := absurd registered Bool.false_ne_true

/-- The mirrors are right in every run. -/
theorem kept_reached
    (run : Reach (step cfg bincode) (ShortResponses bincode) (new workers) self)
    : self.Kept bincode :=
  run.invariant (Kept bincode) (.new bincode workers)
    fun kept short taken => kept.stepped short taken

-----------------------------------------------------------------------------------------
-- Events, where the reads are whole
-----------------------------------------------------------------------------------------

/-- The pass gives bytes that wait their event. -/
theorem Wakeful.top (wakeful : self.Wakeful) (kept : self.Kept bincode)
    {elapsed : Option Duration} {closeNow : Bool} {registers : Token → Bool}
    (taken
      : self.step cfg bincode (.net (.server (.top elapsed closeNow registers))) = some after)
    : after.Wakeful := by
  obtain ⟨net, within, rfl⟩ := Option.map_eq_some_iff.mp taken
  obtain ⟨server, steps, rfl⟩ := Option.map_eq_some_iff.mp within
  cases Server.step_takes steps with
  | top stands =>
    intro runs n next found
    rcases Server.loopTop_sockets cfg kept.cover elapsed closeNow registers with
      ⟨result, returned, -⟩ | ⟨tks, passed, left⟩
    · rw [returned] at runs
      rw [returned] at runs
      cases runs
    · rw [passed] at found ⊢
      obtain ⟨registered, there, drained⟩ := forall₂_getElem? left found
      obtain ⟨stream, registry, at_, rfl⟩ := UnixStreams.getElem?_reregister there
      obtain ⟨interest, same⟩ := stream.reregister_interest (registers stream.token) registry
      have socket : next.stream = stream.stream := by
        rw [drained.stream, same]
      have awake : (self.watches n).edge.Awake (stream.stream.toServer ≠ []) :=
        wakeful.awake (by rw [stands]; rfl) (by rw [stands]; rfl) at_
      right
      simp only [reregister, at_, socket]
      exact Watch.awake_reregister awake

/-- Bytes that arrive bring their event. -/
theorem Wakeful.worker (wakeful : self.Wakeful) {n : Nat} {op : LinkOp}
    (taken : self.step cfg bincode (.net (.worker n op)) = some after)
    : after.Wakeful := by
  obtain ⟨net, steps, rfl⟩ := Option.map_eq_some_iff.mp taken
  obtain ⟨stream, socket, at_, same⟩ := workerStep_frame steps
  intro runs m next found
  simp only [same] at runs found
  obtain ⟨before, there, token, -, -, -, elsewhere⟩ := getElem?_set_stream at_ found
  rcases wakeful runs m before there with ⟨ev, member, own, readable⟩ | awake
  · left
    refine ⟨ev, ?_, own.trans token.symm, readable⟩
    simp only [same]
    exact member
  · right
    by_cases grew : m = n ∧ (self.net.unread n).length < (net.unread n).length
    · simp only [arrived, if_pos grew]
      exact Edge.awake_arrive _ _
    · simp only [arrived, if_neg grew]
      refine awake.mono ?_
      intro unread empty
      by_cases here : m = n
      · subst here
        refine grew ⟨rfl, ?_⟩
        have now : net.unread m = next.stream.toServer := by
          simp only [Net.unread, same, found, Option.map_some, Option.getD_some]
        have earlier : self.net.unread m = [] := by
          simp only [Net.unread, there, empty, Option.map_some, Option.getD_some]
        rw [now, earlier]
        exact List.length_pos_iff.mpr unread
      · rw [elsewhere here, empty] at unread
        exact unread rfl

/-- A delivered event is in the batch. -/
theorem Wakeful.poll (wakeful : self.Wakeful) (kept : self.Kept bincode)
    {reported : Nat → Bool} {events : Option (List MioEvent)} {running : Bool}
    {now : SystemTime} {deregisters : Token → Bool}
    (taken
      : self.step cfg bincode (.poll reported events running now deregisters) = some after)
    : after.Wakeful := by
  simp only [step] at taken
  split at taken
  · next reports =>
      obtain ⟨net, within, rfl⟩ := Option.map_eq_some_iff.mp taken
      obtain ⟨server, steps, rfl⟩ := Option.map_eq_some_iff.mp within
      obtain ⟨left, -⟩ := Server.step_drains kept.cover steps
        (fun _ _ _ same => nomatch same) (fun _ same => nomatch same)
      intro runs n next found
      obtain ⟨stream, there, drained⟩ := forall₂_getElem? left found
      have awake : (self.watches n).edge.Awake (stream.stream.toServer ≠ []) :=
        wakeful.awake (Server.step_takes steps).runs
          (Server.step_batch steps fun _ same => nomatch same) there
      by_cases delivers : reported n = true
      · left
        obtain ⟨-, ev, member, own, readable⟩ :=
          reports (stream, n) (List.mem_zipIdx_iff_getElem?.mpr there) delivers
        refine ⟨ev, ?_, own.trans drained.token.symm, readable⟩
        cases Server.step_takes steps with
        | poll stands => exact member
      · right
        simp only [delivered, if_neg delivers, drained.stream]
        exact awake
  · cases taken

/-- A whole read leaves nothing that needs an event. -/
theorem Wakeful.event (wakeful : self.Wakeful) (kept : self.Kept bincode) {io : EventIo}
    (whole : self.ReadsAll (.net (.server (.event io))))
    (taken : self.step cfg bincode (.net (.server (.event io))) = some after)
    : after.Wakeful := by
  obtain ⟨net, within, rfl⟩ := Option.map_eq_some_iff.mp taken
  obtain ⟨server, steps, rfl⟩ := Option.map_eq_some_iff.mp within
  intro runs n next found
  obtain ⟨ev, evs, stands, rest⟩ := Server.step_event steps runs
  obtain ⟨stream, there, token, -, left⟩ :=
    Server.event_sockets kept.cover stands steps found
  have fewer : next.stream.toServer ≠ [] → stream.stream.toServer ≠ [] := by
    intro unread empty
    rw [left, empty, List.drop_nil] at unread
    exact unread rfl
  by_cases own : stream.token = ev.token ∧ ev.readable = true
  · -- the socket's own event: the condition says what is left
    right
    have head : ev ∈ self.net.server.phase.batch.head? := by
      rw [stands]
      rfl
    rcases whole ev head own.2 (stream, n) (List.mem_zipIdx_iff_getElem?.mpr there) own.1
      with pending | all
    · exact fun _ _ => pending
    · refine Edge.awake_unready _ fun unread => unread ?_
      rw [left]
      exact List.drop_eq_nil_of_le all
  · rcases wakeful (Server.step_takes steps).runs n stream there with
      ⟨first, member, same, readable⟩ | awake
    · left
      rw [stands] at member
      rcases List.mem_cons.mp member with rfl | later
      · exact absurd ⟨same.symm, readable⟩ own
      · refine ⟨first, ?_, same.trans token.symm, readable⟩
        simp only [rest]
        exact later
    · exact .inr (awake.mono fewer)

/-- Every step with whole reads keeps the sockets wakeful. Witness: one case for each
label.
-/
theorem Wakeful.stepped (wakeful : self.Wakeful) (kept : self.Kept bincode)
    {label : WakingLabel} (whole : self.ReadsAll label)
    (taken : self.step cfg bincode label = some after)
    : after.Wakeful := by
  cases label with
  | poll => exact wakeful.poll kept taken
  | net input =>
      cases input with
      | worker n op => exact wakeful.worker taken
      | server input =>
          cases input with
          | top => exact wakeful.top kept taken
          | poll => cases taken
          | event io => exact wakeful.event kept whole taken
          | keepAlive | close | advance =>
              obtain ⟨net, within, rfl⟩ := Option.map_eq_some_iff.mp taken
              obtain ⟨server, steps, rfl⟩ := Option.map_eq_some_iff.mp within
              obtain ⟨left, -⟩ := Server.step_drains kept.cover steps
                (fun _ _ _ same => nomatch same) (fun _ same => nomatch same)
              intro runs n next found
              obtain ⟨stream, there, drained⟩ := forall₂_getElem? left found
              right
              rw [drained.stream]
              exact wakeful.awake (Server.step_takes steps).runs
                (Server.step_batch steps fun _ same => nomatch same) there

/-- Every state of a run with whole reads is wakeful. -/
theorem wakeful_reached
    (run : Reach (step cfg bincode) (WholeReads bincode) (new workers) self)
    : self.Wakeful := by
  have both : self.Kept bincode ∧ self.Wakeful := by
    refine run.invariant (fun waking => waking.Kept bincode ∧ waking.Wakeful) ?_ ?_
    · refine ⟨.new bincode workers, ?_⟩
      intro runs n stream found
      right
      exact Edge.awake_idle _
    · intro before label after both whole taken
      exact ⟨both.1.stepped whole.1 taken, both.2.stepped both.1 whole.2 taken⟩
  exact both.2

end Waking

-----------------------------------------------------------------------------------------
-- Wake-ups of the worker sockets
-----------------------------------------------------------------------------------------

/-- The server's mirror of each worker socket's registration is right in every run, and at a
poll after a pass that succeeded every socket is registered for what it needs. Where every
readable event takes all that waits, no socket then has unread bytes without an event still
to be delivered.
-/
theorem worker_sockets_wake (cfg : Config) (bincode : Bincode) (workers : Nat)
    {waking : Waking}
    (run
      : Reach (Waking.step cfg bincode) (Waking.ShortResponses bincode)
          (Waking.new workers) waking)
    : (∀ (n : Nat) (stream : UnixStream),
        waking.net.server.unixStreams[n]? = some stream →
        (waking.watches n).interest = stream.interest.registered)
      ∧ (waking.net.server.phase = .polling →
        waking.registered = true →
        (∀ (n : Nat) (stream : UnixStream),
          waking.net.server.unixStreams[n]? = some stream →
          (0 < stream.numReqs → (waking.watches n).interest.any (·.readable) = true)
          ∧ (stream.msgBuffer.hasDataToSend = true →
              (waking.watches n).interest.any (·.writable) = true))
        ∧ (Reach (Waking.step cfg bincode) (Waking.WholeReads bincode)
            (Waking.new workers) waking →
          ∀ n : Nat,
            waking.net.unread n ≠ [] → (waking.watches n).edge.pending = true)) := by
  have kept := Waking.kept_reached run
  refine ⟨fun n stream found => (kept.mirrors n stream found).interest, ?_⟩
  intro polling registered
  have passed : waking.net.server.phase.passed = true := by
    rw [polling]
    rfl
  refine ⟨?_, ?_⟩
  · intro n stream found
    rw [(kept.mirrors n stream found).interest]
    exact kept.wanted registered passed n stream found
  · intro wholeRun n unread
    have wakeful := Waking.wakeful_reached wholeRun
    cases found : waking.net.server.unixStreams[n]? with
    | none =>
        simp only [Net.unread, found, Option.map_none, Option.getD_none] at unread
        exact absurd rfl unread
    | some stream =>
        simp only [Net.unread, found, Option.map_some, Option.getD_some] at unread
        obtain ⟨worker, -, covers⟩ := forall₂_getElem? kept.cover.flip found
        have covers : stream.Covers bincode worker := covers
        have interested := (kept.mirrors n stream found).interested.trans
          ((kept.wanted registered passed n stream found).1 (covers.unread unread))
        exact wakeful.awake (by rw [polling]; rfl) (by rw [polling]; rfl) found interested
          unread

/-- Clients connect and all their requests go to one worker, which answers them together; so
many bytes of its answers are written before the server reads.
-/
def burst (clients written : Nat) : List WakingLabel :=
  let io (read accepted write : Nat) : EventIo :=
    ⟨some ⟨7⟩, true, .ok read, accepted, .ok write⟩
  let tokens :=
    (List.range clients).map fun n => UInt64.ofNat ((n + 1) * newStreamCountInc)
  let iteration (reported : Bool) (events : List MioEvent) (io : EventIo)
      : List WakingLabel :=
    [.net (.server (.top none false fun _ => true)), .net (.server .advance),
      .net (.server .advance), .poll (fun _ => reported) (some events) true 0 fun _ => true]
    ++ events.map (fun _ => .net (.server (.event io))) ++ [.net (.server .advance)]
  ((List.range clients).flatMap fun _ => iteration false [⟨0, true, false⟩] (io 0 0 0))
  ++ iteration false (tokens.map fun tk => ⟨tk, true, false⟩) (io 0 0 0)
  ++ iteration false [⟨1, false, true⟩] (io 0 clients (13 * clients))
  ++ [.net (.worker 0 (.workerRead clients (.ok (13 * clients))))]
  ++ tokens.map (fun _ => .net (.worker 0 .nextStreamFd))
  ++ tokens.map (fun tk => .net (.worker 0 (.respBadClient tk)))
  ++ [.net (.worker 0 (.workerWrite (.ok written)))]
  ++ iteration true [⟨1, true, false⟩] (io (min 2048 written) 0 0)
  ++ [.net (.server (.top none false fun _ => true)), .net (.server .advance)]
  ++ List.replicate (min 2048 written / 53) (.net (.server .close)) ++ [.net (.server .advance)]

/-- The second of two answers comes after the first was read, with an event of its own. -/
theorem worker_sockets_wake_two
    : ∃ waking : Waking,
        waking.net.server.phase = .polling
        ∧ (waking.net.unread 0).length = 53
        ∧ (waking.watches 0).edge.pending = true := by
  let answer : WakingLabel := .net (.worker 0 (.workerWrite (.ok 53)))
  have runs
      : (exec (Waking.step (.default "casket") .fixint) (Waking.WholeReads .fixint) (.new 1)
          (burst 2 53 ++ [answer])).map
          (fun waking =>
            (waking.net.server.phase, waking.registered, (waking.net.unread 0).length))
        = some (.polling, true, 53) := by
    decide +kernel
  obtain ⟨waking, done, out⟩ := Option.map_eq_some_iff.mp runs
  obtain ⟨polling, rest⟩ := Prod.mk.inj out
  obtain ⟨registered, unread⟩ := Prod.mk.inj rest
  have run := Reach.of_exec _ done
  have wakes := worker_sockets_wake (.default "casket") .fixint 1
    (run.weaken fun whole => whole.1)
  have some_ : waking.net.unread 0 ≠ [] := by
    intro empty
    rw [empty] at unread
    cases unread
  exact ⟨waking, polling, unread, (wakes.2 polling registered).2 run 0 some_⟩

/-- Forty answers are more than one read takes: the rest waits without an event. -/
theorem worker_socket_sleeps
    : ∃ waking : Waking,
        Reach (Waking.step (.default "casket") .fixint) (Waking.OwnTokens .fixint) (.new 1)
          waking
        ∧ waking.net.server.phase = .polling
        ∧ waking.registered = true
        ∧ (waking.net.unread 0).length = 72
        ∧ (waking.watches 0).edge.pending = false := by
  have runs
      : (exec (Waking.step (.default "casket") .fixint) (Waking.OwnTokens .fixint) (.new 1)
          (burst 40 2120)).map
          (fun waking =>
            (waking.net.server.phase, waking.registered, (waking.net.unread 0).length,
              (waking.watches 0).edge.pending))
        = some (.polling, true, 72, false) := by
    decide +kernel
  obtain ⟨waking, done, out⟩ := Option.map_eq_some_iff.mp runs
  obtain ⟨polling, rest⟩ := Prod.mk.inj out
  obtain ⟨registered, rest⟩ := Prod.mk.inj rest
  obtain ⟨unread, pending⟩ := Prod.mk.inj rest
  exact ⟨waking, Reach.of_exec _ done, polling, registered, unread, pending⟩

end Casket
