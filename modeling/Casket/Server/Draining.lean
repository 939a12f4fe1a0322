import Casket.Server.Shutdown

/-! The server after its shutdown. The event loop has no test of its own, so what it does with
a batch polled before the shutdown decides whether the server only drains from then on.
-/

namespace Casket

open Lib

namespace Server

/-- Once the shutdown has run, no event of the listener brings a connection that is taken
in: there is none to accept, the limit is reached, or its registration fails.
-/
def NoLateStream (cfg : Config) (server : Server) : ServerInput → Prop
  | .event io =>
      server.runShutdown = true →
      ∀ ev ∈ server.phase.batch.head?,
        ev.token = serverToken →
        io.accept.isSome →
        server.readingStreams.keys.length + server.processingStreams.keys.length
          < cfg.maxConns →
        io.registers = false
  | _ => True

instance (cfg : Config) (server : Server) (input : ServerInput)
    : Decidable (server.NoLateStream cfg input) :=
  match input with
  | .event io =>
      inferInstanceAs
        (Decidable
          (server.runShutdown = true →
            ∀ ev ∈ server.phase.batch.head?,
              ev.token = serverToken →
              io.accept.isSome →
              server.readingStreams.keys.length + server.processingStreams.keys.length
                < cfg.maxConns →
              io.registers = false))
  | .top .. | .keepAlive _ | .close | .poll .. | .advance => isTrue trivial

/-- Why the loop may return without an error: nothing is in process, the clock went back,
the wait time is over and all streams are shut down, or there was a second signal.
-/
inductive MayReturn (cfg : Config) (server : Server) (input : ServerInput) (after : Server)
    : Prop
  | drained (empty : server.processingStreams.keys = [])
  | clockBack {closeNow registers} (seen : input = .top none closeNow registers)
    (since : server.ctrlcInstant.isSome)
  | waited {elapsed closeNow registers} (seen : input = .top (some elapsed) closeNow registers)
    (since : server.ctrlcInstant.isSome) (past : cfg.ctrlcWaitTime ≤ elapsed)
    (empty : after.processingStreams.keys = [])
    (shutDown
      : ∀ tk ∈ server.processingStreams.keys, (tk, Closing.shutDown) ∈ after.closed)
  | closeNow {elapsed registers} (seen : input = .top elapsed true registers)

/-- What a step does once the shutdown has run. -/
structure Drains (cfg : Config) (server : Server) (input : ServerInput) (after : Server)
    : Prop where
  stopped : after.runShutdown = true
  nothingWaits : after.readingStreams.keys = []
  nothingDispatched : UnixStreams.Keep server.unixStreams after.unixStreams
  nothingGained
    : ∀ tk tcpStream,
        after.processingStreams.lookup tk = some tcpStream →
        server.processingStreams.lookup tk = some tcpStream
  handedBack
    : ∀ tk tks,
        server.phase = .keepAlive (tk :: tks) ∨ server.phase = .closing (tk :: tks) →
        tk ∈ server.processingStreams.keys →
        after.closed = server.closed ++ [(tk, .shutDown)]
        ∧ after.registry = server.registry.erase tk
  returns : after.phase = .returned (.ok ()) → server.MayReturn cfg input after

/-- After a shutdown no stream waits for a request. -/
def Drained (server : Server) : Prop :=
  server.runShutdown = true → server.readingStreams.keys = []

variable {cfg : Config} {bincode : Bincode} {server after : Server} {input : ServerInput}

/-- Steps that leave the streams in place, without returning. -/
theorem Drains.still (stopped : server.runShutdown = true)
    (idle : server.readingStreams.keys = []) {unixStreams : List UnixStream}
    {registry : TokenMap Interest} {phase : ServerPhase} {assigned : List Token}
    {closed : List (Token × Closing)} {clientStreamCount : Nat}
    {ctrlcInstant : Option SystemTime}
    (keep : UnixStreams.Keep server.unixStreams unixStreams)
    (handsNothing
      : ∀ tk tks, server.phase ≠ .keepAlive (tk :: tks) ∧ server.phase ≠ .closing (tk :: tks))
    (goesOn : phase ≠ .returned (.ok ()))
    : server.Drains cfg input
        { server with
          unixStreams, registry, phase, assigned, closed, clientStreamCount, ctrlcInstant }
    where
  stopped := stopped
  nothingWaits := idle
  nothingDispatched := keep
  nothingGained _ _ found := found
  handedBack tk tks stands := absurd stands (not_or.mpr (handsNothing tk tks))
  returns returned := absurd returned goesOn

/-- The exit tests return for one of the reasons, or the iteration starts. -/
theorem Drains.loopTop (stopped : server.runShutdown = true)
    (idle : server.readingStreams.keys = []) (stands : server.phase = .top)
    (elapsed : Option Duration) (closeNow : Bool) (registers : Token → Bool)
    : server.Drains cfg (.top elapsed closeNow registers)
        (server.loopTop cfg elapsed closeNow registers) := by
  have handsNothing
      : ∀ tk tks,
          server.phase ≠ .keepAlive (tk :: tks) ∧ server.phase ≠ .closing (tk :: tks) := by
    rw [stands]
    exact fun tk tks => ⟨fun hands => (nomatch hands), fun hands => (nomatch hands)⟩
  rcases server.loopTop_cases cfg elapsed closeNow registers with
    starts | ⟨returns, reason⟩ | ⟨time, since, rfl, past, returns⟩
  · rw [starts]
    obtain ⟨streams, registry, phase, started, keep, next⟩ :=
      server.startIteration_frame registers
    rw [started]
    refine .still stopped idle keep handsNothing ?_
    rcases next with ⟨tks, rfl⟩ | ⟨panic, rfl⟩ <;> exact fun returned => nomatch returned
  · rw [returns]
    refine ⟨stopped, idle, .refl _, fun _ _ found => found, ?_, ?_⟩
    · exact fun tk tks hands => absurd hands (not_or.mpr (handsNothing tk tks))
    · intro _
      rcases reason with ⟨-, empty⟩ | ⟨since, rfl⟩ | close
      · exact .drained empty
      · exact .clockBack rfl since
      · obtain rfl : closeNow = true := close
        exact .closeNow rfl
  · rw [returns]
    refine ⟨stopped, idle, .refl _, ?_, ?_, ?_⟩
    · intro tk tcpStream found
      cases found
    · exact fun tk tks hands => absurd hands (not_or.mpr (handsNothing tk tks))
    · intro _
      refine .waited rfl since past rfl ?_
      intro tk processing
      exact List.mem_append_right _ (List.mem_map_of_mem processing)

/-- A stream handed back, to be kept or to be closed, is shut down. -/
theorem Drains.shutsDown (stopped : server.runShutdown = true)
    (idle : server.readingStreams.keys = []) {tk : Token} {phase : ServerPhase}
    {assigned : List Token} (goesOn : phase ≠ .returned (.ok ()))
    (hands
      : ∀ other tks,
          server.phase = .keepAlive (other :: tks) ∨ server.phase = .closing (other :: tks) →
          other = tk)
    : server.Drains cfg input
        (Server.giveUp
          { server with
            phase, assigned, processingStreams := server.processingStreams.erase tk }
          tk .shutDown)
    where
  stopped := stopped
  nothingWaits := idle
  nothingDispatched := .refl _
  nothingGained other tcpStream found := by
    by_cases same : other = tk
    · subst same
      have gone := AList.lookup_erase other server.processingStreams
      exact absurd (gone.symm.trans found) (fun impossible => nomatch impossible)
    · exact (AList.lookup_erase_ne same).symm.trans found
  handedBack other tks stands _ := by
    obtain rfl := hands other tks stands
    exact ⟨rfl, rfl⟩
  returns returned := absurd returned goesOn

/-- A token that is not in process ends the loop in a panic. -/
theorem Drains.panics (stopped : server.runShutdown = true)
    (idle : server.readingStreams.keys = []) {tk : Token} {panic : Panic}
    (absent : server.processingStreams.lookup tk = none)
    (hands
      : ∀ other tks,
          server.phase = .keepAlive (other :: tks) ∨ server.phase = .closing (other :: tks) →
          other = tk)
    : server.Drains cfg input { server with phase := .panicked panic }
    where
  stopped := stopped
  nothingWaits := idle
  nothingDispatched := .refl _
  nothingGained _ _ found := found
  handedBack other tks stands processing := by
    obtain rfl := hands other tks stands
    exact absurd processing (not_mem_keys_of_lookup absent)
  returns returned := nomatch returned

/-- Once the shutdown has run, a step that takes no connection in only drains. Witness: one
case for each branch.
-/
theorem Drains.stepped (stopped : server.runShutdown = true)
    (idle : server.readingStreams.keys = []) (late : server.NoLateStream cfg input)
    (taken : server.step cfg bincode input = some after)
    : server.Drains cfg input after := by
  have handsOther {phase : ServerPhase} (stands : server.phase = phase)
      (noKept : ∀ tk tks, phase ≠ .keepAlive (tk :: tks))
      (noClosing : ∀ tk tks, phase ≠ .closing (tk :: tks))
      : ∀ tk tks,
          server.phase ≠ .keepAlive (tk :: tks) ∧ server.phase ≠ .closing (tk :: tks) := by
    rw [stands]
    exact fun tk tks => ⟨noKept tk tks, noClosing tk tks⟩
  cases step_takes taken with
  | top stands => exact .loopTop stopped idle stands ..
  | @keepAlive tk tks registers stands =>
      have hands
          : ∀ other rest,
              server.phase = .keepAlive (other :: rest)
                ∨ server.phase = .closing (other :: rest) →
              other = tk := by
        rw [stands]
        rintro other rest (kept | closing)
        · exact (List.cons.inj (ServerPhase.keepAlive.inj kept)).1.symm
        · cases closing
      unfold Server.keepAliveStream
      split
      · next absent => exact .panics stopped idle absent hands
      · simp only
        rw [if_pos stopped]
        exact .shutsDown stopped idle (fun returned => nomatch returned) hands
  | keptAll stands =>
      obtain ⟨streams, phase, closing, keep, next⟩ := server.takeCloseTks_frame
      rw [closing]
      refine .still stopped idle keep ?_ ?_
      · exact handsOther stands (fun _ _ h => nomatch h) (fun _ _ h => nomatch h)
      · rcases next with ⟨tks, rfl⟩ | ⟨panic, rfl⟩ <;> exact fun returned => nomatch returned
  | @close tk tks stands =>
      have hands
          : ∀ other rest,
              server.phase = .keepAlive (other :: rest)
                ∨ server.phase = .closing (other :: rest) →
              other = tk := by
        rw [stands]
        rintro other rest (kept | closing)
        · cases kept
        · exact (List.cons.inj (ServerPhase.closing.inj closing)).1.symm
      unfold Server.closeStream
      split
      · next absent => exact .panics stopped idle absent hands
      · exact .shutsDown stopped idle (fun returned => nomatch returned) hands
  | closedAll stands =>
      refine .still stopped idle (.refl _) ?_ (fun returned => nomatch returned)
      exact handsOther stands (fun _ _ h => nomatch h) (fun _ _ h => nomatch h)
  | poll stands =>
      have again : ∀ failed : Bool, (failed && !server.runShutdown) = false := by
        intro failed
        rw [stopped, Bool.not_true, Bool.and_false]
      simp only [Server.polled, again, Bool.false_eq_true, if_false]
      refine .still stopped idle (.refl _) ?_ (fun returned => nomatch returned)
      exact handsOther stands (fun _ _ h => nomatch h) (fun _ _ h => nomatch h)
  | @accept ev evs io stands listener =>
      have handsNothing := handsOther stands (fun _ _ h => nomatch h) (fun _ _ h => nomatch h)
      unfold Server.acceptStream
      split
      · exact .still stopped idle (.refl _) handsNothing (fun returned => nomatch returned)
      · next tcpStream accepted =>
          simp only
          split
          · exact .still stopped idle (.refl _) handsNothing (fun returned => nomatch returned)
          · next below =>
              have refused : io.registers = false := by
                refine late stopped ev ?_ listener ?_ (Nat.lt_of_not_le below)
                · rw [stands]
                  rfl
                · rw [accepted]
                  rfl
              rw [refused]
              exact .still stopped idle (.refl _) handsNothing
                (fun returned => nomatch returned)
  | dispatch stands other waiting =>
      have waits := mem_keys_of_lookup waiting
      rw [idle] at waits
      cases waits
  | @unixStream ev evs io n stream after stands other quiet position found taken =>
      have handsNothing := handsOther stands (fun _ _ h => nomatch h) (fun _ _ h => nomatch h)
      rcases unixStreamEvent_frame taken with ⟨panic, rfl⟩ | ⟨next, keeps, rfl⟩
      · exact .still stopped idle (.refl _) handsNothing (fun returned => nomatch returned)
      · exact .still stopped idle (.set found keeps) handsNothing
          (fun returned => nomatch returned)
  | unknown stands =>
      refine .still stopped idle (.refl _) ?_ (fun returned => nomatch returned)
      exact handsOther stands (fun _ _ h => nomatch h) (fun _ _ h => nomatch h)
  | handled stands =>
      refine .still stopped idle (.refl _) ?_ (fun returned => nomatch returned)
      exact handsOther stands (fun _ _ h => nomatch h) (fun _ _ h => nomatch h)

/-- Only a poll starts the shutdown, and it leaves no stream waiting. -/
theorem Drained.stepped (drained : server.Drained) (late : server.NoLateStream cfg input)
    (taken : server.step cfg bincode input = some after)
    : after.Drained := by
  intro stopped
  by_cases before : server.runShutdown = true
  · exact (Drains.stepped before (drained before) late taken).nothingWaits
  · have takes := step_takes taken
    by_cases polls : server.phase = .polling
    · cases takes with
      | poll =>
          unfold Server.polled at stopped ⊢
          split
          · rfl
          · next goesOn =>
              rw [if_neg goesOn] at stopped
              exact absurd stopped before
      | _ =>
          have stands := ‹server.phase = _›
          rw [polls] at stands
          cases stands
    · rw [takes.sameShutdown polls] at stopped
      exact absurd stopped before

/-- After the shutdown no stream waits, in every run without a late stream. -/
theorem drained_reached {workers : Nat}
    (run
      : Reach (Server.openStep cfg bincode) (Server.OnInput (Server.NoLateStream cfg))
          (Server.new workers) server)
    : server.Drained := by
  refine run.invariant Server.Drained (fun stopped => absurd stopped Bool.false_ne_true) ?_
  intro before label after drained late taken
  cases label with
  | input input => exact drained.stepped late taken
  | socket n socket =>
      obtain ⟨stream, -, rfl⟩ := Option.map_eq_some_iff.mp taken
      exact drained

/-- A step that leaves no stream waiting has taken in no late one. -/
theorem noLateStream_of_idle (taken : server.step cfg bincode input = some after)
    (idle : after.readingStreams.keys = [])
    : server.NoLateStream cfg input := by
  cases input with
  | top | keepAlive | close | poll | advance => trivial
  | event io =>
  intro stopped ev head listener accepts below
  obtain ⟨evs, stands⟩ := ServerPhase.batch_head? head
  by_contra registers
  rw [Bool.not_eq_false] at registers
  obtain ⟨tcpStream, accepted⟩ := Option.isSome_iff_exists.mp accepts
  simp only [Server.step, stands, Server.handleEvent, if_pos listener, Server.acceptStream,
    accepted, if_neg (Nat.not_le_of_lt below), if_pos registers] at taken
  obtain rfl := Option.some.inj taken
  have waits : server.nextClientToken
      ∈ (server.readingStreams.insert server.nextClientToken tcpStream).keys :=
    mem_keys_insert.mpr (.inl rfl)
  rw [show (server.readingStreams.insert server.nextClientToken tcpStream).keys = [] from idle]
    at waits
  cases waits

end Server

-----------------------------------------------------------------------------------------
-- Draining
-----------------------------------------------------------------------------------------

/-- In a run that takes no connection in once the shutdown has run, the server only drains
from then on; and a step that takes one in does not.
-/
theorem shutdown_drains (cfg : Config) (bincode : Bincode) (workers : Nat) {server : Server}
    (run
      : Reach (Server.openStep cfg bincode) (Server.OnInput (Server.NoLateStream cfg))
          (Server.new workers) server)
    (stopped : server.runShutdown = true)
    : server.readingStreams.keys = []
      ∧ ∀ input after,
          server.step cfg bincode input = some after →
          (server.Drains cfg input after ↔ server.NoLateStream cfg input) := by
  have idle := Server.drained_reached run stopped
  refine ⟨idle, ?_⟩
  intro input after taken
  constructor
  · intro drains
    exact Server.noLateStream_of_idle taken drains.nothingWaits
  · intro late
    exact .stepped stopped idle late taken

/-- A stream is in process when the signal comes. The poll has still reported the listener, but
no connection is waiting, so the step drains as it should.
-/
theorem shutdown_drains_accept
    : ∃ server after : Server,
        server.processingStreams.keys = [16777216]
        ∧ server.step (.default "casket") .fixint (.event ⟨none, true, .ok 0, 0, .ok 0⟩)
          = some after
        ∧ server.Drains (.default "casket") (.event ⟨none, true, .ok 0, 0, .ok 0⟩) after := by
  let inputs := untilSignal [⟨16777216, true, false⟩] [⟨0, true, false⟩]
  let io : EventIo := ⟨none, true, .ok 0, 0, .ok 0⟩
  let step := Server.openStep (.default "casket") .fixint
  have runs
      : (exec step (Server.OnInput (Server.NoLateStream (.default "casket"))) (.new 1)
          (inputs.map .input)).map
          (fun server =>
            (server.runShutdown, server.processingStreams.keys,
              (server.step (.default "casket") .fixint (.event io)).isSome))
        = some (true, [16777216], true) := by
    decide +kernel
  obtain ⟨server, done, out⟩ := Option.map_eq_some_iff.mp runs
  obtain ⟨stopped, rest⟩ := Prod.mk.inj out
  obtain ⟨inProcess, steps⟩ := Prod.mk.inj rest
  obtain ⟨after, taken⟩ := Option.isSome_iff_exists.mp steps
  have drains := shutdown_drains (.default "casket") .fixint 1 (Reach.of_exec _ done) stopped
  have late : server.NoLateStream (.default "casket") (.event io) := by
    intro _ ev _ _ accepts
    cases accepts
  exact ⟨server, after, inProcess, taken, (drains.2 _ after taken).mpr late⟩

/-- The listener's event comes with the poll that starts the shutdown: the connection is
accepted, and its request goes to the worker in the next iteration.
-/
theorem shutdown_dispatches_stream
    : ∃ server after : Server,
        Reach (Server.openStep (.default "casket") .fixint)
          (Server.OnInput Server.PollsRegistered) (Server.new 1) server
        ∧ server.runShutdown = true
        ∧ server.step (.default "casket") .fixint (.event ⟨none, true, .ok 0, 0, .ok 0⟩)
          = some after
        ∧ server.processingStreams.lookup 33554432 = none
        ∧ after.processingStreams.lookup 33554432 = some ⟨9⟩ := by
  let io : EventIo := ⟨some ⟨9⟩, true, .ok 0, 0, .ok 0⟩
  let inputs :=
    untilSignal [⟨16777216, true, false⟩] [⟨0, true, false⟩]
    ++ [.event io, .advance, .top (some 0) false fun _ => true, .advance, .advance,
      .poll (some [⟨33554432, true, false⟩]) false 0 fun _ => true]
  let step := Server.openStep (.default "casket") .fixint
  have runs
      : (exec step (Server.OnInput Server.PollsRegistered) (.new 1)
          (inputs.map .input)).map
          (fun server =>
            (server.runShutdown, server.processingStreams.lookup 33554432,
              (server.step (.default "casket") .fixint
                (.event ⟨none, true, .ok 0, 0, .ok 0⟩)).map
                (·.processingStreams.lookup 33554432)))
        = some (true, none, some (some ⟨9⟩)) := by
    decide +kernel
  obtain ⟨server, done, out⟩ := Option.map_eq_some_iff.mp runs
  obtain ⟨stopped, rest⟩ := Prod.mk.inj out
  obtain ⟨before, steps⟩ := Prod.mk.inj rest
  obtain ⟨after, taken, gained⟩ := Option.map_eq_some_iff.mp steps
  exact ⟨server, after, Reach.of_exec _ done, stopped, taken, before, gained⟩

end Casket
