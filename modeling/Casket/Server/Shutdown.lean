import Casket.Server.Steps

/-! The shutdown of the server. It runs between a poll and the events of that poll, so the
events may be those of streams it has just closed, or of the listener it has just left.
-/

namespace Casket

open Lib

/-- The events still to be handled. -/
def ServerPhase.batch : ServerPhase → List MioEvent
  | .events evs => evs
  | _ => []

/-- The event at hand is the first one of the batch. -/
theorem ServerPhase.batch_head? {phase : ServerPhase} {ev : MioEvent}
    (head : ev ∈ phase.batch.head?)
    : ∃ evs, phase = .events (ev :: evs) := by
  cases phase with
  | events evs => exact ⟨evs.tail, congrArg _ (List.eq_cons_of_mem_head? head)⟩
  | _ => cases head

namespace Server

-----------------------------------------------------------------------------------------
-- What a poll may return
-----------------------------------------------------------------------------------------

/-- A stream waits under this token, and neither the listener nor a socket has it. -/
def OnlyWaiting (server : Server) (tk : Token) : Prop :=
  tk ≠ serverToken ∧ tk ∉ server.socketTokens ∧ tk ∈ server.readingStreams.keys

instance (server : Server) (tk : Token) : Decidable (server.OnlyWaiting tk) :=
  inferInstanceAs (Decidable (_ ∧ _ ∧ _))

/-- The loop finds a handler for the token. -/
def Known (server : Server) (tk : Token) : Prop :=
  tk = serverToken ∨ tk ∈ server.socketTokens ∨ tk ∈ server.readingStreams.keys

/-- A poll reports registered sources; a worker socket may be reported at any time. -/
def PollsRegistered (server : Server) : ServerInput → Prop
  | .poll (some events) _ _ _ =>
      ∀ ev ∈ events, ev.token ∈ server.registry.keys ∨ ev.token ∈ server.socketTokens
  | _ => True

/-- A poll reports no waiting stream twice, and none when the shutdown starts with it. -/
def Timely (server : Server) : ServerInput → Prop
  | .poll (some events) running _ _ =>
      events.Pairwise (fun ev other => ev.token = other.token → ¬server.OnlyWaiting ev.token)
      ∧ (running = false → server.runShutdown = false →
          ∀ ev ∈ events, ¬server.OnlyWaiting ev.token)
  | _ => True

/-- Both conditions on what a poll returns. -/
def TimelyPolls (server : Server) (input : ServerInput) : Prop :=
  server.PollsRegistered input ∧ server.Timely input

instance (server : Server) (input : ServerInput) : Decidable (server.PollsRegistered input) :=
  match input with
  | .poll (some events) _ _ _ =>
      inferInstanceAs
        (Decidable
          (∀ ev ∈ events,
            ev.token ∈ server.registry.keys ∨ ev.token ∈ server.socketTokens))
  | .poll none .. | .top .. | .keepAlive _ | .close | .event _ | .advance => isTrue trivial

instance (server : Server) (input : ServerInput) : Decidable (server.Timely input) :=
  match input with
  | .poll (some events) running _ _ =>
      inferInstanceAs
        (Decidable
          (events.Pairwise
              (fun ev other => ev.token = other.token → ¬server.OnlyWaiting ev.token)
          ∧ (running = false → server.runShutdown = false →
              ∀ ev ∈ events, ¬server.OnlyWaiting ev.token)))
  | .poll none .. | .top .. | .keepAlive _ | .close | .event _ | .advance => isTrue trivial

instance (server : Server) (input : ServerInput) : Decidable (server.TimelyPolls input) :=
  inferInstanceAs (Decidable (_ ∧ _))

-----------------------------------------------------------------------------------------
-- Every event finds its handler
-----------------------------------------------------------------------------------------

/-- Registered sources and the events at hand have handlers, and no event at hand takes
another one's handler away.
-/
structure Attended (server : Server) : Prop where
  registered : ∀ tk ∈ server.registry.keys, server.Known tk
  batch : ∀ ev ∈ server.phase.batch, server.Known ev.token
  once
    : server.phase.batch.Pairwise fun ev other =>
        ev.token = other.token → ev.token = serverToken ∨ ev.token ∈ server.socketTokens
  calm : server.phase ≠ .returned (.error .unknownToken)

variable {cfg : Config} {bincode : Bincode} {server after : Server} {input : ServerInput}

/-- Only an event finds events at hand. -/
theorem step_batch (taken : server.step cfg bincode input = some after)
    (other : ∀ io, input ≠ .event io)
    : server.phase.batch = [] := by
  cases step_takes taken with
  | accept | dispatch | unixStream | unknown => exact absurd rfl (other _)
  | _ =>
      have stands := ‹server.phase = _›
      rw [stands]
      rfl

/-- A token keeps its handler while the sockets stay and the waiting streams only gain. -/
theorem Known.mono {tk : Token} (known : server.Known tk)
    (sockets : after.socketTokens = server.socketTokens)
    (reading : tk ∈ server.readingStreams.keys → tk ∈ after.readingStreams.keys)
    : after.Known tk := by
  rcases known with listener | socket | waits
  · exact .inl listener
  · exact .inr (.inl (sockets ▸ socket))
  · exact .inr (.inr (reading waits))

/-- A token with a handler is not waited under alone: it has another handler. -/
theorem Known.shared {tk : Token} (known : server.Known tk) (other : ¬server.OnlyWaiting tk)
    : tk = serverToken ∨ tk ∈ server.socketTokens := by
  rcases known with listener | socket | waits
  · exact .inl listener
  · exact .inr socket
  · by_contra neither
    exact other ⟨(not_or.mp neither).1, (not_or.mp neither).2, waits⟩

/-- Steps with no events at hand: what is registered must have handlers. -/
theorem Attended.idle (registered : ∀ tk ∈ after.registry.keys, after.Known tk)
    (empty : after.phase.batch = [])
    (calm : after.phase ≠ .returned (.error .unknownToken))
    : after.Attended where
  registered := registered
  batch ev member := by simp [empty] at member
  once := by simp [empty]
  calm := calm

/-- Whatever is registered after the sockets' calls was so before, or is a socket's token.
Witness: induction on the sockets, by the call each of them makes.
-/
theorem mem_reregister {succeeds : Token → Bool} {streams : List UnixStream}
    {registry : TokenMap Interest} {tk : Token}
    (member : tk ∈ (UnixStreams.reregister succeeds streams registry).2.keys)
    : tk ∈ registry.keys ∨ tk ∈ streams.map (·.token) := by
  induction streams generalizing registry with
  | nil => exact .inl member
  | cons stream rest ih =>
      rcases ih member with here | there
      · split at here
        · exact .inl here
        · next call made =>
            split at here
            · cases call with
              | deregister => exact .inl (mem_keys_erase.mp here).2
              | register interest | reregister interest =>
                  rcases mem_keys_insert.mp here with own | before
                  · exact .inr (own ▸ List.mem_cons_self)
                  · exact .inl before
            · exact .inl here
      · exact .inr (List.mem_cons_of_mem _ there)

/-- The start of an iteration registers sockets only. -/
theorem Attended.startIteration (attended : server.Attended) (registers : Token → Bool)
    : (server.startIteration registers).Attended := by
  unfold Server.startIteration
  simp only
  split
  · exact .idle attended.registered rfl (fun returned => nomatch returned)
  · next tks streams drained =>
      have tokens : streams.map (·.token) = server.socketTokens :=
        (UnixStreams.keep_drainAll ServerMsgBuffer.nextStreamTk_toSend drained).tokens.trans
          (UnixStreams.keep_reregister ..).tokens
      refine .idle ?_ rfl (fun returned => nomatch returned)
      intro tk member
      rcases mem_reregister member with before | socket
      · exact (attended.registered tk before).mono tokens id
      · refine .inr (.inl ?_)
        rw [socketTokens, tokens]
        exact socket

/-- The exit tests return without an error. -/
theorem Attended.loopTop (attended : server.Attended) (elapsed : Option Duration)
    (closeNow : Bool) (registers : Token → Bool)
    : (server.loopTop cfg elapsed closeNow registers).Attended := by
  rcases server.loopTop_cases cfg elapsed closeNow registers with
    starts | ⟨returns, -⟩ | ⟨time, -, -, -, returns⟩
  · rw [starts]
    exact attended.startIteration registers
  · rw [returns]
    exact .idle attended.registered rfl (fun returned => nomatch returned)
  · rw [returns]
    exact .idle attended.registered rfl (fun returned => nomatch returned)

/-- Whatever is registered next to those before, if a stream waits under its token. -/
theorem known_insert {tk other : Token} {interest : Interest} {tcpStream : TcpStream}
    (registered : ∀ tk ∈ server.registry.keys, server.Known tk)
    (sockets : after.socketTokens = server.socketTokens)
    (reading : after.readingStreams = server.readingStreams.insert tk tcpStream)
    (member : other ∈ (server.registry.insert tk interest).keys)
    : after.Known other := by
  rcases mem_keys_insert.mp member with own | before
  · refine .inr (.inr ?_)
    rw [reading]
    exact mem_keys_insert.mpr (.inl own)
  · refine (registered other before).mono sockets fun waits => ?_
    rw [reading]
    exact mem_keys_insert.mpr (.inr waits)

/-- Whatever stays registered after an erasure, if the same streams wait. -/
theorem known_erase {tk other : Token}
    (registered : ∀ tk ∈ server.registry.keys, server.Known tk)
    (sockets : after.socketTokens = server.socketTokens)
    (reading : after.readingStreams = server.readingStreams)
    (member : other ∈ (server.registry.erase tk).keys)
    : after.Known other :=
  (registered other (mem_keys_erase.mp member).2).mono sockets fun waits => reading ▸ waits

/-- A stream handed back waits again under its next token, or is given up. -/
theorem Attended.keepAliveStream (attended : server.Attended) {tk : Token}
    {tks : List Token} (stands : server.phase = .keepAlive tks) (registers : Bool)
    : (server.keepAliveStream tk registers).Attended := by
  have running : ServerPhase.keepAlive tks ≠ .returned (.error .unknownToken) :=
    fun returned => nomatch returned
  unfold Server.keepAliveStream
  split
  · exact .idle attended.registered rfl (fun returned => nomatch returned)
  · simp only
    split
    · refine .idle ?_ (by rw [giveUp, stands]; rfl) (by rw [giveUp, stands]; exact running)
      exact fun other member => known_erase attended.registered rfl rfl member
    · split
      · refine .idle ?_ (by rw [stands]; rfl) (by rw [stands]; exact running)
        intro other member
        exact known_insert attended.registered rfl rfl member
      · refine .idle ?_ (by rw [giveUp, stands]; rfl) (by rw [giveUp, stands]; exact running)
        exact fun other member => known_erase attended.registered rfl rfl member

/-- Taking the tokens to be closed leaves the registrations alone. -/
theorem Attended.takeCloseTks (attended : server.Attended) : server.takeCloseTks.Attended := by
  obtain ⟨streams, phase, taken, keep, stands⟩ := server.takeCloseTks_frame
  rw [taken]
  refine .idle ?_ ?_ ?_
  · intro tk member
    exact (attended.registered tk member).mono keep.tokens id
  · rcases stands with ⟨tks, rfl⟩ | ⟨panic, rfl⟩ <;> rfl
  · rcases stands with ⟨tks, rfl⟩ | ⟨panic, rfl⟩ <;> exact fun returned => nomatch returned

/-- A stream to be closed is given up. -/
theorem Attended.closeStream (attended : server.Attended) {tk : Token} {tks : List Token}
    (stands : server.phase = .closing tks)
    : (server.closeStream tk).Attended := by
  unfold Server.closeStream
  split
  · refine .idle attended.registered rfl ?_
    intro returned
    cases returned
  · refine .idle ?_ (by rw [giveUp, stands]; rfl) ?_
    · exact fun other member => known_erase attended.registered rfl rfl member
    · rw [giveUp, stands]
      intro returned
      cases returned

/-- Whatever stays registered after a shutdown was so before and is no idle stream's. -/
theorem mem_shutdown {deregisters : Token → Bool} {tk : Token}
    (member : tk ∈ (server.shutdown deregisters).registry.keys)
    : tk ∈ server.registry.keys ∧ tk ∉ server.readingStreams.keys := by
  have erased
      : ∀ (idle : List Token) (registry : TokenMap Interest),
          tk ∈ (idle.foldl (fun registry tk => registry.erase tk) registry).keys →
          tk ∈ registry.keys ∧ tk ∉ idle := by
    intro idle
    induction idle with
    | nil => exact fun registry member => ⟨member, List.not_mem_nil⟩
    | cons first rest ih =>
        intro registry member
        obtain ⟨before, others⟩ := ih (registry.erase first) member
        obtain ⟨apart, before⟩ := mem_keys_erase.mp before
        exact ⟨before, List.not_mem_cons_of_ne_of_not_mem apart others⟩
  obtain ⟨before, idle⟩ := erased _ _ member
  refine ⟨?_, idle⟩
  split at before
  · exact (mem_keys_erase.mp before).2
  · exact before

/-- The events of a timely poll have handlers also when the shutdown came first. -/
theorem Attended.polled (attended : server.Attended) {events : Option (List MioEvent)}
    {running : Bool} {now : SystemTime} {deregisters : Token → Bool}
    (registered : server.PollsRegistered (.poll events running now deregisters))
    (timely : server.Timely (.poll events running now deregisters))
    : (server.polled events running now deregisters).Attended := by
  have reported : ∀ ev ∈ events.getD [], server.Known ev.token := by
    cases events with
    | none => exact fun ev member => nomatch member
    | some events =>
        intro ev member
        rcases registered ev member with source | socket
        · exact attended.registered _ source
        · exact .inr (.inl socket)
  have once
      : (events.getD []).Pairwise fun ev other =>
          ev.token = other.token →
          ev.token = serverToken ∨ ev.token ∈ server.socketTokens := by
    cases events with
    | none => exact .nil
    | some events =>
        refine timely.1.imp_of_mem ?_
        intro ev other member _ apart same
        exact (reported ev member).shared (apart same)
  unfold Server.polled
  split
  · next starts =>
      refine ⟨?_, ?_, once, fun returned => nomatch returned⟩
      · intro tk member
        obtain ⟨before, idle⟩ := mem_shutdown member
        exact (attended.registered tk before).mono rfl (fun waits => absurd waits idle)
      · intro ev member
        cases events with
        | none => cases member
        | some events =>
            have stopped : running = false ∧ server.runShutdown = false := by
              simpa using starts
            have shared := (reported ev member).shared
              (timely.2 stopped.1 stopped.2 ev member)
            rcases shared with listener | socket
            · exact .inl listener
            · exact .inr (.inl socket)
  · refine ⟨?_, ?_, once, fun returned => nomatch returned⟩
    · exact fun tk member => (attended.registered tk member).mono rfl id
    · exact fun ev member => (reported ev member).mono rfl id

/-- A handled event leaves the others their handlers, when no other stream stops to wait. -/
theorem Attended.handled (attended : server.Attended) {ev : MioEvent} {evs : List MioEvent}
    (stands : server.phase = .events (ev :: evs)) (stays : after.phase = .events evs)
    (sockets : after.socketTokens = server.socketTokens)
    (registered : ∀ tk ∈ after.registry.keys, after.Known tk)
    (waiting
      : ∀ tk ∈ server.readingStreams.keys,
          tk ≠ ev.token → tk ∈ after.readingStreams.keys)
    : after.Attended := by
  have batch := attended.batch
  have once := attended.once
  rw [stands] at batch once
  obtain ⟨first, rest⟩ := List.pairwise_cons.mp once
  refine ⟨registered, ?_, ?_, ?_⟩
  · intro other member
    rw [stays] at member
    by_cases same : ev.token = other.token
    · rcases first other member same with listener | socket
      · exact .inl (same ▸ listener)
      · exact .inr (.inl (sockets ▸ same ▸ socket))
    · exact (batch other (List.mem_cons_of_mem _ member)).mono sockets
        fun waits => waiting _ waits (Ne.symm same)
  · rw [stays, sockets]
    exact rest
  · rw [stays]
    exact fun returned => nomatch returned

/-- Accepting a stream takes no other stream's handler away. -/
theorem Attended.acceptStream (attended : server.Attended) {ev : MioEvent}
    {evs : List MioEvent} (stands : server.phase = .events (ev :: evs)) (io : EventIo)
    : ({ server with phase := .events evs }.acceptStream cfg io).Attended := by
  unfold Server.acceptStream
  split
  · refine attended.handled stands rfl rfl ?_ fun tk waits _ => waits
    exact fun tk member => (attended.registered tk member).mono rfl id
  · simp only
    split
    · refine attended.handled stands rfl rfl ?_ fun tk waits _ => waits
      exact fun tk member => known_erase attended.registered rfl rfl member
    · split
      · refine attended.handled stands rfl rfl ?_ ?_
        · exact fun tk member => known_insert attended.registered rfl rfl member
        · exact fun tk waits _ => mem_keys_insert.mpr (.inr waits)
      · refine attended.handled stands rfl rfl ?_ fun tk waits _ => waits
        exact fun tk member => known_erase attended.registered rfl rfl member

/-- Dispatching a stream takes its own handler away, which no other event needs; without
workers it panics.
-/
theorem Attended.dispatchStream (attended : server.Attended) {ev : MioEvent}
    {evs : List MioEvent} (stands : server.phase = .events (ev :: evs))
    {tcpStream : TcpStream} {io : EventIo}
    (dispatched
      : after = { server with phase := .events evs }.dispatchStream ev.token tcpStream io)
    : after.Attended ∨ ∃ panic, after.phase = .panicked panic := by
  have without
      : ∀ tk ∈ server.readingStreams.keys,
          tk ≠ ev.token → tk ∈ (server.readingStreams.erase ev.token).keys :=
    fun tk waits apart => mem_keys_erase.mpr ⟨apart, waits⟩
  unfold Server.dispatchStream at dispatched
  simp only at dispatched
  split at dispatched
  · split at dispatched
    · next panic failed => exact .inr ⟨panic, dispatched ▸ rfl⟩
    · next streams sent =>
        subst dispatched
        obtain ⟨stream, found, rfl⟩ := UnixStreams.msgSendTcpStream_ok sent
        have tokens := UnixStreams.set_tokens
          (stream.msgSendTcpStream ev.token tcpStream.fd) found rfl
        refine .inl (attended.handled stands rfl tokens ?_ without)
        intro tk member
        obtain ⟨apart, before⟩ := mem_keys_erase.mp member
        exact (attended.registered tk before).mono tokens fun waits => without tk waits apart
  · subst dispatched
    refine .inl (attended.handled stands rfl rfl ?_ without)
    intro tk member
    obtain ⟨apart, before⟩ := mem_keys_erase.mp member
    exact (attended.registered tk before).mono rfl fun waits => without tk waits apart

/-- Every timely step leaves each event a handler, or panics. Witness: one case for each
branch.
-/
theorem Attended.stepped (attended : server.Attended)
    (registered : server.PollsRegistered input) (timely : server.Timely input)
    (taken : server.step cfg bincode input = some after)
    : after.Attended ∨ ∃ panic, after.phase = .panicked panic := by
  have known {phase : ServerPhase}
      : ∀ tk ∈ server.registry.keys, Known { server with phase } tk :=
    fun tk member => (attended.registered tk member).mono rfl id
  cases step_takes taken with
  | top => exact .inl (attended.loopTop ..)
  | @keepAlive tk tks registers stands =>
      have before : Attended { server with phase := .keepAlive tks } :=
        .idle known rfl (fun returned => nomatch returned)
      exact .inl (before.keepAliveStream rfl registers)
  | keptAll => exact .inl attended.takeCloseTks
  | @close tk tks stands =>
      have before : Attended { server with phase := .closing tks } :=
        .idle known rfl (fun returned => nomatch returned)
      exact .inl (before.closeStream rfl)
  | closedAll => exact .inl (.idle known rfl (fun returned => nomatch returned))
  | poll => exact .inl (attended.polled registered timely)
  | accept stands => exact .inl (attended.acceptStream stands _)
  | dispatch stands => exact attended.dispatchStream stands rfl
  | @unixStream ev evs io n stream after stands other idle position found taken =>
      rcases unixStreamEvent_frame taken with ⟨panic, rfl⟩ | ⟨next, keeps, rfl⟩
      · exact .inr ⟨panic, rfl⟩
      · have tokens := UnixStreams.set_tokens _ found keeps.token
        refine .inl (attended.handled stands rfl tokens ?_ fun tk waits _ => waits)
        exact fun tk member => (attended.registered tk member).mono tokens id
  | @unknown ev evs io stands other idle nowhere =>
      have known := attended.batch ev (by rw [stands]; exact List.mem_cons_self)
      rcases known with listener | socket | waits
      · exact absurd listener other
      · exact absurd socket (UnixStreams.position?_eq_none nowhere)
      · exact absurd waits (not_mem_keys_of_lookup idle)
  | handled => exact .inl (.idle known rfl (fun returned => nomatch returned))

/-- A socket changed from outside keeps its token. -/
theorem Attended.withSocket (attended : server.Attended) {n : Nat} {socket : UnixSocket}
    (taken : server.withSocket n socket = some after)
    : after.Attended := by
  obtain ⟨stream, found, rfl⟩ := Option.map_eq_some_iff.mp taken
  have tokens := UnixStreams.set_tokens { stream with stream := socket } found rfl
  refine ⟨?_, ?_, ?_, attended.calm⟩
  · exact fun tk member => (attended.registered tk member).mono tokens id
  · exact fun ev member => (attended.batch ev member).mono tokens id
  · simp only [socketTokens, tokens]
    exact attended.once

/-- In every run of timely polls each event has a handler, until the loop panics. -/
theorem attended_reached {workers : Nat}
    (run
      : Reach (Server.openStep cfg bincode) (Server.OnInput Server.TimelyPolls)
          (Server.new workers) server)
    : server.Attended ∨ ∃ panic, server.phase = .panicked panic := by
  refine run.invariant (fun s => s.Attended ∨ ∃ panic, s.phase = .panicked panic) ?_ ?_
  · refine .inl (.idle ?_ rfl (fun returned => nomatch returned))
    intro tk member
    rcases mem_keys_insert.mp member with listener | nothing
    · exact .inl listener
    · cases nothing
  · intro before label after attended timely taken
    rcases attended with attended | ⟨panic, stands⟩
    · cases label with
      | input input => exact attended.stepped timely.1 timely.2 taken
      | socket n socket => exact .inl (attended.withSocket taken)
    · cases label with
      | input input =>
          have runs := (step_takes taken).runs
          rw [stands] at runs
          cases runs
      | socket n socket =>
          obtain ⟨stream, -, rfl⟩ := Option.map_eq_some_iff.mp taken
          exact .inr ⟨panic, stands⟩

end Server

-----------------------------------------------------------------------------------------
-- Unknown tokens
-----------------------------------------------------------------------------------------

/-- In a run whose polls report no waiting stream twice, and none with which the shutdown
starts, every event has the token of the listener, of a worker socket or of a waiting stream,
and the server does not die of an unknown token.
-/
theorem events_known (cfg : Config) (bincode : Bincode) (workers : Nat) {server : Server}
    (run
      : Reach (Server.openStep cfg bincode) (Server.OnInput Server.TimelyPolls)
          (Server.new workers) server)
    : (∀ ev evs, server.phase = .events (ev :: evs) →
        ev.token = serverToken
        ∨ ev.token ∈ server.socketTokens
        ∨ ev.token ∈ server.readingStreams.keys)
      ∧ server.phase ≠ .returned (.error .unknownToken) := by
  rcases Server.attended_reached run with attended | ⟨panic, stands⟩
  · refine ⟨?_, attended.calm⟩
    intro ev evs stands
    apply attended.batch
    rw [stands]
    exact List.mem_cons_self
  · rw [stands]
    refine ⟨?_, fun returned => nomatch returned⟩
    intro ev evs impossible
    cases impossible

/-- One connection is accepted, its request is handed to the worker, and a signal comes with
the poll that reports this batch.
-/
def untilSignal (requests : List MioEvent) (batch : List MioEvent) : List ServerInput :=
  let io : EventIo := ⟨some ⟨7⟩, true, .ok 0, 0, .ok 0⟩
  let iteration (events : List MioEvent) (running : Bool) : List ServerInput :=
    [.top none false fun _ => true, .advance, .advance,
      .poll (some events) running 0 fun _ => true]
  iteration [⟨0, true, false⟩] true ++ [.event io, .advance]
  ++ iteration requests true ++ requests.map (fun _ => .event io) ++ [.advance]
  ++ iteration batch false

/-- The worker socket's event is handled after the shutdown. -/
theorem events_known_socket
    : ∃ server : Server,
        server.runShutdown = true
        ∧ server.phase = .events [⟨1, false, true⟩]
        ∧ server.phase ≠ .returned (.error .unknownToken) := by
  let inputs := untilSignal [⟨16777216, true, false⟩] [⟨1, false, true⟩]
  let step := Server.openStep (.default "casket") .fixint
  have runs
      : (exec step (Server.OnInput Server.TimelyPolls) (.new 1) (inputs.map .input)).map
          (fun server => (server.runShutdown, server.phase))
        = some (true, .events [⟨1, false, true⟩]) := by
    decide +kernel
  obtain ⟨server, done, out⟩ := Option.map_eq_some_iff.mp runs
  obtain ⟨stopped, stands⟩ := Prod.mk.inj out
  have known := events_known (.default "casket") .fixint 1 (Reach.of_exec _ done)
  exact ⟨server, stopped, stands, known.2⟩

/-- The request comes with the poll that starts the shutdown: its stream is gone when the
event is handled.
-/
theorem shutdown_forgets_stream
    : ∃ server : Server,
        Reach (Server.openStep (.default "casket") .fixint)
          (Server.OnInput Server.PollsRegistered) (Server.new 1) server
        ∧ server.phase = .returned (.error .unknownToken) := by
  let inputs :=
    untilSignal [] [⟨16777216, true, false⟩] ++ [.event ⟨none, true, .ok 0, 0, .ok 0⟩]
  let step := Server.openStep (.default "casket") .fixint
  have runs
      : (exec step (Server.OnInput Server.PollsRegistered) (.new 1)
          (inputs.map .input)).map (·.phase)
        = some (.returned (.error .unknownToken)) := by
    decide +kernel
  obtain ⟨server, done, stands⟩ := Option.map_eq_some_iff.mp runs
  exact ⟨server, Reach.of_exec _ done, stands⟩

end Casket
