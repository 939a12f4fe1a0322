import Casket.Server.Shutdown

/-! The client streams of the server: where a step may put them, how many there may be, and
that none is lost between the two maps.
-/

namespace Casket

open Lib

/-- The streams the server holds, those it has given up, and how many it has accepted. -/
structure Streams where
  reading : TokenMap TcpStream
  processing : TokenMap TcpStream
  closed : List (Token × Closing)
  accepted : Nat

namespace Streams

/-- The streams held in either map. -/
def held (streams : Streams) : Nat :=
  streams.reading.keys.length + streams.processing.keys.length

/-- What may become of the streams in one step. -/
inductive Move (maxConns : Nat) (streams : Streams) : Streams → Prop
  | still : Move maxConns streams streams
  | accept {tk tcpStream} (below : streams.held < maxConns)
    (idle : tk ∉ streams.reading.keys) (free : tk ∉ streams.processing.keys)
    : Move maxConns streams
        { streams with
          reading := streams.reading.insert tk tcpStream
          accepted := streams.accepted + 1 }
  | refuse {tk}
    : Move maxConns streams
        { streams with
          closed := streams.closed ++ [(tk, .dropped)]
          accepted := streams.accepted + 1 }
  | dispatch {tk tcpStream} (waits : streams.reading.lookup tk = some tcpStream)
    : Move maxConns streams
        { streams with
          reading := streams.reading.erase tk
          processing := streams.processing.insert tk tcpStream }
  | drop {tk tcpStream} (waits : streams.reading.lookup tk = some tcpStream)
    : Move maxConns streams
        { streams with
          reading := streams.reading.erase tk
          closed := streams.closed ++ [(tk, .dropped)] }
  | keep {tk tcpStream} (inProcess : streams.processing.lookup tk = some tcpStream)
    (idle : tk + keepAliveCountInc ∉ streams.reading.keys)
    (free : tk + keepAliveCountInc ∉ streams.processing.keys)
    : Move maxConns streams
        { streams with
          reading := streams.reading.insert (tk + keepAliveCountInc) tcpStream
          processing := streams.processing.erase tk }
  | close {tk tcpStream closing} (inProcess : streams.processing.lookup tk = some tcpStream)
    : Move maxConns streams
        { streams with
          processing := streams.processing.erase tk
          closed := streams.closed ++ [(tk, closing)] }
  | closeReading {closing : Token → Closing}
    : Move maxConns streams
        { streams with
          reading := ∅
          closed := streams.closed ++ streams.reading.keys.map fun tk => (tk, closing tk) }
  | closeProcessing
    : Move maxConns streams
        { streams with
          processing := ∅
          closed := streams.closed ++ streams.processing.keys.map fun tk => (tk, .shutDown) }

/-- No stream is in both maps, and there are no more than the limit. -/
structure Sound (maxConns : Nat) (streams : Streams) : Prop where
  apart : ∀ tk ∈ streams.reading.keys, tk ∉ streams.processing.keys
  limited : streams.held ≤ maxConns

/-- Every accepted stream is held or was given up, and is counted once. -/
def Balanced (streams : Streams) : Prop :=
  streams.held + streams.closed.length = streams.accepted

/-- The step gave the stream up under this token. -/
def GaveUp (streams after : Streams) (tk : Token) : Prop :=
  ∃ given closing, after.closed = streams.closed ++ given ∧ (tk, closing) ∈ given

/-- Where a stream held before the step is afterwards. -/
structure Keeps (streams after : Streams) : Prop where
  reading
    : ∀ tk tcpStream,
        streams.reading.lookup tk = some tcpStream →
        after.reading.lookup tk = some tcpStream
        ∨ after.processing.lookup tk = some tcpStream
        ∨ streams.GaveUp after tk
  processing
    : ∀ tk tcpStream,
        streams.processing.lookup tk = some tcpStream →
        after.processing.lookup tk = some tcpStream
        ∨ after.reading.lookup (tk + keepAliveCountInc) = some tcpStream
        ∨ streams.GaveUp after tk

variable {maxConns : Nat} {streams after : Streams}

/-- Every move keeps the maps apart and within the limit. Witness: one case for each move. -/
theorem Sound.moved (sound : streams.Sound maxConns) (move : streams.Move maxConns after)
    : after.Sound maxConns := by
  obtain ⟨apart, limited⟩ := sound
  unfold held at limited
  cases move with
  | still => exact ⟨apart, limited⟩
  | accept below idle free =>
      unfold held at below
      refine ⟨?_, ?_⟩
      · intro other waits
        rcases mem_keys_insert.mp waits with rfl | before
        · exact free
        · exact apart other before
      · simp only [held, length_keys_insert idle]
        omega
  | refuse => exact ⟨apart, limited⟩
  | @dispatch tk tcpStream waits =>
      have there := mem_keys_of_lookup waits
      have fewer := length_keys_erase there
      refine ⟨?_, ?_⟩
      · intro other waits inProcess
        obtain ⟨different, before⟩ := mem_keys_erase.mp waits
        rcases mem_keys_insert.mp inProcess with same | inProcess
        · exact different same
        · exact apart other before inProcess
      · simp only [held, length_keys_insert (apart tk there)]
        omega
  | @drop tk tcpStream waits =>
      have fewer := length_keys_erase (mem_keys_of_lookup waits)
      refine ⟨?_, ?_⟩
      · intro other waits
        exact apart other (mem_keys_erase.mp waits).2
      · simp only [held]
        omega
  | @keep tk tcpStream inProcess idle free =>
      have fewer := length_keys_erase (mem_keys_of_lookup inProcess)
      refine ⟨?_, ?_⟩
      · intro other waits inProcess
        have before := (mem_keys_erase.mp inProcess).2
        rcases mem_keys_insert.mp waits with rfl | waits
        · exact free before
        · exact apart other waits before
      · simp only [held, length_keys_insert idle]
        omega
  | @close tk tcpStream closing inProcess =>
      have fewer := length_keys_erase (mem_keys_of_lookup inProcess)
      refine ⟨?_, ?_⟩
      · intro other waits inProcess
        exact apart other waits (mem_keys_erase.mp inProcess).2
      · simp only [held]
        omega
  | closeReading =>
      refine ⟨fun _ waits => absurd waits List.not_mem_nil, ?_⟩
      have none_ : (∅ : TokenMap TcpStream).keys.length = 0 := rfl
      simp only [held, none_]
      omega
  | closeProcessing =>
      refine ⟨fun _ _ => List.not_mem_nil, ?_⟩
      have none_ : (∅ : TokenMap TcpStream).keys.length = 0 := rfl
      simp only [held, none_]
      omega

/-- Every move keeps the balance. Witness: one case for each move. -/
theorem Balanced.moved (balanced : streams.Balanced) (sound : streams.Sound maxConns)
    (move : streams.Move maxConns after)
    : after.Balanced := by
  unfold Balanced held at *
  cases move with
  | still => exact balanced
  | accept below idle free =>
      simp only [length_keys_insert idle]
      omega
  | refuse =>
      simp only [List.length_append, List.length_singleton]
      omega
  | @dispatch tk tcpStream waits =>
      have there := mem_keys_of_lookup waits
      have fewer := length_keys_erase there
      simp only [length_keys_insert (sound.apart tk there)]
      omega
  | drop waits =>
      have fewer := length_keys_erase (mem_keys_of_lookup waits)
      simp only [List.length_append, List.length_singleton]
      omega
  | keep inProcess idle free =>
      have fewer := length_keys_erase (mem_keys_of_lookup inProcess)
      simp only [length_keys_insert idle]
      omega
  | close inProcess =>
      have fewer := length_keys_erase (mem_keys_of_lookup inProcess)
      simp only [List.length_append, List.length_singleton]
      omega
  | closeReading =>
      have none_ : (∅ : TokenMap TcpStream).keys.length = 0 := rfl
      simp only [List.length_append, List.length_map, none_]
      omega
  | closeProcessing =>
      have none_ : (∅ : TokenMap TcpStream).keys.length = 0 := rfl
      simp only [List.length_append, List.length_map, none_]
      omega

/-- A stream leaves a map only into the other map or given up. Witness: one case for each
move.
-/
theorem Keeps.moved (sound : streams.Sound maxConns) (move : streams.Move maxConns after)
    : streams.Keeps after := by
  cases move with
  | still => exact ⟨fun _ _ found => .inl found, fun _ _ found => .inl found⟩
  | accept below idle free =>
      exact ⟨fun _ _ found => .inl (lookup_insert_fresh idle found), fun _ _ found => .inl found⟩
  | refuse => exact ⟨fun _ _ found => .inl found, fun _ _ found => .inl found⟩
  | @dispatch tk tcpStream waits =>
      refine ⟨?_, ?_⟩
      · intro other moved found
        rcases lookup_erase_cases tk found with rfl | stays
        · rw [waits] at found
          obtain rfl := Option.some.inj found
          exact .inr (.inl (AList.lookup_insert _))
        · exact .inl stays
      · intro other stays found
        have free := sound.apart tk (mem_keys_of_lookup waits)
        exact .inl (lookup_insert_fresh free found)
  | @drop tk tcpStream waits =>
      refine ⟨?_, fun _ _ found => .inl found⟩
      intro other gone found
      rcases lookup_erase_cases tk found with rfl | stays
      · exact .inr (.inr ⟨_, _, rfl, List.mem_singleton_self _⟩)
      · exact .inl stays
  | @keep tk tcpStream inProcess idle free =>
      refine ⟨fun _ _ found => .inl (lookup_insert_fresh idle found), ?_⟩
      intro other moved found
      rcases lookup_erase_cases tk found with rfl | stays
      · rw [inProcess] at found
        obtain rfl := Option.some.inj found
        exact .inr (.inl (AList.lookup_insert _))
      · exact .inl stays
  | @close tk tcpStream closing inProcess =>
      refine ⟨fun _ _ found => .inl found, ?_⟩
      intro other gone found
      rcases lookup_erase_cases tk found with rfl | stays
      · exact .inr (.inr ⟨_, _, rfl, List.mem_singleton_self _⟩)
      · exact .inl stays
  | closeReading =>
      refine ⟨?_, fun _ _ found => .inl found⟩
      intro other gone found
      exact .inr (.inr ⟨_, _, rfl, List.mem_map_of_mem (mem_keys_of_lookup found)⟩)
  | closeProcessing =>
      refine ⟨fun _ _ found => .inl found, ?_⟩
      intro other gone found
      exact .inr (.inr ⟨_, _, rfl, List.mem_map_of_mem (mem_keys_of_lookup found)⟩)

end Streams

-----------------------------------------------------------------------------------------
-- The server moves its streams
-----------------------------------------------------------------------------------------

namespace Server

/-- The client streams of the server. -/
def streams (server : Server) : Streams where
  reading := server.readingStreams
  processing := server.processingStreams
  closed := server.closed
  accepted := server.clientStreamCount

variable {cfg : Config} {bincode : Bincode} {server after : Server} {input : ServerInput}

/-- A stream handed back is moved to its next token, or closed. -/
theorem keepAliveStream_moves (server : Server) {tk : Token} {registers : Bool}
    (fresh
      : ∀ tcpStream,
          server.processingStreams.lookup tk = some tcpStream →
          server.runShutdown = false →
          registers = true →
          tk + keepAliveCountInc ∉ server.readingStreams.keys
          ∧ tk + keepAliveCountInc ∉ server.processingStreams.keys)
    : server.streams.Move cfg.maxConns (server.keepAliveStream tk registers).streams := by
  unfold Server.keepAliveStream
  split
  · exact .still
  · next tcpStream inProcess =>
      simp only
      split
      · exact .close inProcess
      · next open_ =>
          split
          · next registered =>
              obtain ⟨idle, free⟩ :=
                fresh tcpStream inProcess (Bool.eq_false_iff.mpr open_) registered
              exact .keep inProcess idle free
          · exact .close inProcess

/-- A stream to be closed is closed. -/
theorem closeStream_moves (cfg : Config) (server : Server) (tk : Token)
    : server.streams.Move cfg.maxConns (server.closeStream tk).streams := by
  unfold Server.closeStream
  split
  · exact .still
  · next tcpStream inProcess => exact .close inProcess

/-- The exit tests close the streams in process, or leave them alone. -/
theorem loopTop_moves (elapsed : Option Duration) (closeNow : Bool)
    (registers : Token → Bool)
    : server.streams.Move cfg.maxConns
        (server.loopTop cfg elapsed closeNow registers).streams := by
  rcases server.loopTop_cases cfg elapsed closeNow registers with
    starts | ⟨returns, -⟩ | ⟨time, -, -, -, returns⟩
  · obtain ⟨unixStreams, registry, phase, started, -, -⟩ :=
      server.startIteration_frame registers
    rw [starts, started]
    exact .still
  · rw [returns]
    exact .still
  · rw [returns]
    exact .closeProcessing

/-- An accepted stream waits below the limit, and is dropped otherwise. -/
theorem acceptStream_moves (server : Server) {io : EventIo}
    (fresh
      : io.accept.isSome →
        server.readingStreams.keys.length + server.processingStreams.keys.length
          < cfg.maxConns →
        io.registers = true →
        server.nextClientToken ∉ server.readingStreams.keys
        ∧ server.nextClientToken ∉ server.processingStreams.keys)
    : server.streams.Move cfg.maxConns (server.acceptStream cfg io).streams := by
  unfold Server.acceptStream
  split
  · exact .still
  · next tcpStream accepted =>
      simp only
      split
      · exact .refuse
      · next below =>
          split
          · next registered =>
              have below := Nat.lt_of_not_le below
              obtain ⟨idle, free⟩ := fresh (by rw [accepted]; rfl) below registered
              exact .accept below idle free
          · exact .refuse

/-- A dispatched stream is in process, or dropped; without workers the loop panics. -/
theorem dispatchStream_moves (cfg : Config) {tk : Token} {tcpStream : TcpStream} (io : EventIo)
    (waits : server.readingStreams.lookup tk = some tcpStream)
    : server.streams.Move cfg.maxConns (server.dispatchStream tk tcpStream io).streams
      ∨ (∃ panic, (server.dispatchStream tk tcpStream io).phase = .panicked panic)
        ∧ (server.dispatchStream tk tcpStream io).streams
          = { server.streams with reading := server.readingStreams.erase tk } := by
  unfold Server.dispatchStream
  simp only
  split
  · split
    · next panic failed => exact .inr ⟨⟨panic, rfl⟩, rfl⟩
    · exact .inl (.dispatch waits)
  · exact .inl (.drop waits)

/-- Every step with a fresh token moves streams, or panics with one stream on the stack.
Witness: one case for each branch.
-/
theorem step_moves (fresh : server.FreshToken cfg input)
    (taken : server.step cfg bincode input = some after)
    : server.streams.Move cfg.maxConns after.streams
      ∨ (∃ panic, after.phase = .panicked panic)
        ∧ ∃ tk, after.streams = { server.streams with
            reading := server.readingStreams.erase tk } := by
  cases step_takes taken with
  | top => exact .inl (loopTop_moves ..)
  | @keepAlive tk tks registers stands =>
      refine .inl (keepAliveStream_moves { server with phase := .keepAlive tks } ?_)
      intro tcpStream inProcess open_ registered
      refine fresh (tk + keepAliveCountInc) ?_
      have permitted
          : tk ∈ server.processingStreams.keys ∧ !server.runShutdown ∧ registers :=
        ⟨mem_keys_of_lookup inProcess, by rw [show server.runShutdown = false from open_]; rfl,
          registered⟩
      simp only [opens, stands]
      rw [if_pos permitted]
      rfl
  | keptAll =>
      obtain ⟨unixStreams, phase, closing, -, -⟩ := server.takeCloseTks_frame
      rw [closing]
      exact .inl .still
  | @close tk tks =>
      have moves := closeStream_moves cfg { server with phase := .closing tks }
      exact .inl (moves tk)
  | closedAll => exact .inl .still
  | poll =>
      unfold Server.polled
      split
      · exact .inl .closeReading
      · exact .inl .still
  | @accept ev evs io stands listener =>
      refine .inl (acceptStream_moves { server with phase := .events evs } ?_)
      intro accepts below registered
      refine fresh server.nextClientToken ?_
      simp only [opens, stands]
      rw [if_pos ⟨listener, accepts, below, registered⟩]
      rfl
  | @dispatch ev evs io tcpStream stands other waits =>
      have waits : { server with phase := .events evs }.readingStreams.lookup ev.token
          = some tcpStream := waits
      rcases dispatchStream_moves cfg io waits with moves | ⟨panics, left⟩
      · exact .inl moves
      · exact .inr ⟨panics, ev.token, left⟩
  | unixStream stands other idle position found taken =>
      rcases unixStreamEvent_frame taken with ⟨panic, rfl⟩ | ⟨next, keeps, rfl⟩
      · exact .inl .still
      · exact .inl .still
  | unknown => exact .inl .still
  | handled => exact .inl .still

/-- The streams of a running server are kept apart, limited and balanced. -/
structure Conserved (cfg : Config) (server : Server) : Prop where
  sound : server.streams.Sound cfg.maxConns
  balanced : (∃ panic, server.phase = .panicked panic) ∨ server.streams.Balanced

/-- Every step with a fresh token conserves the streams. -/
theorem Conserved.stepped (conserved : server.Conserved cfg)
    (fresh : server.FreshToken cfg input)
    (taken : server.step cfg bincode input = some after)
    : after.Conserved cfg := by
  rcases step_moves fresh taken with moves | ⟨panics, tk, left⟩
  · refine ⟨conserved.sound.moved moves, ?_⟩
    rcases conserved.balanced with ⟨panic, stands⟩ | balanced
    · have runs := (step_takes taken).runs
      rw [stands] at runs
      cases runs
    · exact .inr (balanced.moved conserved.sound moves)
  · refine ⟨?_, .inl panics⟩
    rw [left]
    refine ⟨?_, ?_⟩
    · intro other waits
      exact conserved.sound.apart other (mem_keys_erase.mp waits).2
    · have limited := conserved.sound.limited
      have fewer : (server.readingStreams.erase tk).keys.length
          ≤ server.readingStreams.keys.length := by
        rw [AList.keys_erase]
        exact List.erase_sublist.length_le
      exact Nat.le_trans (Nat.add_le_add_right fewer _) limited

/-- Every state of a run with fresh tokens conserves the streams. -/
theorem conserved_reached {workers : Nat}
    (run
      : Reach (Server.openStep cfg bincode) (Server.OnInput (Server.FreshToken cfg))
          (Server.new workers) server)
    : server.Conserved cfg := by
  refine run.invariant (Server.Conserved cfg) ?_ ?_
  · refine ⟨⟨fun _ waits => absurd waits List.not_mem_nil, Nat.zero_le _⟩, .inr rfl⟩
  · intro before label after conserved fresh taken
    cases label with
    | input input => exact conserved.stepped fresh taken
    | socket n socket =>
        obtain ⟨stream, -, rfl⟩ := Option.map_eq_some_iff.mp taken
        exact ⟨conserved.sound, conserved.balanced⟩

end Server

-----------------------------------------------------------------------------------------
-- Conservation
-----------------------------------------------------------------------------------------

/-- In a run where no stream is opened under the token of an open one, the two maps are
disjoint and within the limit, every accepted stream is held or given up, and a step lets a
stream leave its map only into the other one, dropped or shut down, unless the loop panics.
-/
theorem streams_conserved (cfg : Config) (bincode : Bincode) (workers : Nat)
    {server : Server}
    (run
      : Reach (Server.openStep cfg bincode) (Server.OnInput (Server.FreshToken cfg))
          (Server.new workers) server)
    : (∀ tk ∈ server.readingStreams.keys, tk ∉ server.processingStreams.keys)
      ∧ server.readingStreams.keys.length + server.processingStreams.keys.length
        ≤ cfg.maxConns
      ∧ ((∃ panic, server.phase = .panicked panic) ∨ server.streams.Balanced)
      ∧ ∀ label after,
          server.OnInput (Server.FreshToken cfg) label →
          server.openStep cfg bincode label = some after →
          (∃ panic, after.phase = .panicked panic)
          ∨ server.streams.Keeps after.streams := by
  have conserved := Server.conserved_reached run
  refine ⟨conserved.sound.apart, conserved.sound.limited, conserved.balanced, ?_⟩
  intro label after fresh taken
  cases label with
  | input input =>
      rcases Server.step_moves fresh taken with moves | ⟨panics, -⟩
      · exact .inr (.moved conserved.sound moves)
      · exact .inl panics
  | socket n socket =>
      obtain ⟨stream, -, rfl⟩ := Option.map_eq_some_iff.mp taken
      exact .inr (.moved conserved.sound .still)

/-- A connection waits for its request, which is handed to the worker. -/
theorem streams_conserved_dispatch
    : ∃ server after : Server,
        server.readingStreams.keys = [16777216]
        ∧ server.step (.default "casket") .fixint (.event ⟨none, true, .ok 0, 0, .ok 0⟩)
          = some after
        ∧ after.phase = .events []
        ∧ server.streams.Keeps after.streams := by
  let io : EventIo := ⟨none, true, .ok 0, 0, .ok 0⟩
  let inputs := (untilSignal [⟨16777216, true, false⟩] []).take 10
  let step := Server.openStep (.default "casket") .fixint
  have runs
      : (exec step (Server.OnInput (Server.FreshToken (.default "casket"))) (.new 1)
          (inputs.map .input)).map
          (fun server =>
            (server.readingStreams.keys,
              decide (server.FreshToken (.default "casket") (.event io)),
              (server.step (.default "casket") .fixint (.event io)).map (·.phase)))
        = some ([16777216], true, some (.events [])) := by
    decide +kernel
  obtain ⟨server, done, out⟩ := Option.map_eq_some_iff.mp runs
  obtain ⟨waits, rest⟩ := Prod.mk.inj out
  obtain ⟨fresh, steps⟩ := Prod.mk.inj rest
  obtain ⟨after, taken, stands⟩ := Option.map_eq_some_iff.mp steps
  have conserved := streams_conserved (.default "casket") .fixint 1 (Reach.of_exec _ done)
  have kept := conserved.2.2.2 (.input (.event io)) after (of_decide_eq_true fresh) taken
  rcases kept with ⟨panic, panicked⟩ | keeps
  · rw [stands] at panicked
    cases panicked
  · exact ⟨server, after, waits, taken, stands, keeps⟩

end Casket
