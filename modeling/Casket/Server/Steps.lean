import Casket.Lib.Maps
import Casket.Lib.Pointwise
import Casket.Server.Tokens

/-! What a step of the server can do, one rule for each branch of the loop, and the parts
of its state that no step or only some step touches.
-/

namespace Casket

open Lib

namespace Server

/-- The branches of the loop. A branch that pauses in the same phase has taken its head. -/
inductive Takes (cfg : Config) (bincode : Bincode) (server : Server)
    : ServerInput → Server → Prop
  | top {elapsed closeNow registers} (stands : server.phase = .top)
    : Takes cfg bincode server (.top elapsed closeNow registers)
        (server.loopTop cfg elapsed closeNow registers)
  | keepAlive {tk tks registers} (stands : server.phase = .keepAlive (tk :: tks))
    : Takes cfg bincode server (.keepAlive registers)
        ({ server with phase := .keepAlive tks }.keepAliveStream tk registers)
  | keptAll (stands : server.phase = .keepAlive [])
    : Takes cfg bincode server .advance server.takeCloseTks
  | close {tk tks} (stands : server.phase = .closing (tk :: tks))
    : Takes cfg bincode server .close ({ server with phase := .closing tks }.closeStream tk)
  | closedAll (stands : server.phase = .closing [])
    : Takes cfg bincode server .advance { server with phase := .polling }
  | poll {events running now deregisters} (stands : server.phase = .polling)
    : Takes cfg bincode server (.poll events running now deregisters)
        (server.polled events running now deregisters)
  | accept {ev evs io} (stands : server.phase = .events (ev :: evs))
    (listener : ev.token = serverToken)
    : Takes cfg bincode server (.event io)
        ({ server with phase := .events evs }.acceptStream cfg io)
  | dispatch {ev evs io tcpStream} (stands : server.phase = .events (ev :: evs))
    (other : ev.token ≠ serverToken)
    (waiting : server.readingStreams.lookup ev.token = some tcpStream)
    : Takes cfg bincode server (.event io)
        ({ server with phase := .events evs }.dispatchStream ev.token tcpStream io)
  | unixStream {ev evs io n stream after} (stands : server.phase = .events (ev :: evs))
    (other : ev.token ≠ serverToken)
    (idle : server.readingStreams.lookup ev.token = none)
    (position : UnixStreams.position? server.unixStreams ev.token = some n)
    (found : server.unixStreams[n]? = some stream)
    (taken
      : { server with phase := .events evs }.unixStreamEvent bincode n stream ev io
        = some after)
    : Takes cfg bincode server (.event io) after
  | unknown {ev evs io} (stands : server.phase = .events (ev :: evs))
    (other : ev.token ≠ serverToken)
    (idle : server.readingStreams.lookup ev.token = none)
    (nowhere : UnixStreams.position? server.unixStreams ev.token = none)
    : Takes cfg bincode server (.event io)
        { server with phase := .returned (.error .unknownToken) }
  | handled (stands : server.phase = .events [])
    : Takes cfg bincode server .advance { server with phase := .top }

variable {cfg : Config} {bincode : Bincode} {server after : Server} {input : ServerInput}

/-- Every step takes one of the branches, by the loop's own case analysis. -/
theorem step_takes (taken : server.step cfg bincode input = some after)
    : server.Takes cfg bincode input after := by
  unfold Server.step at taken
  split at taken
  case h_1 stands => exact Option.some.inj taken ▸ .top stands
  case h_2 stands => exact Option.some.inj taken ▸ .keepAlive stands
  case h_3 stands => exact Option.some.inj taken ▸ .keptAll stands
  case h_4 stands => exact Option.some.inj taken ▸ .close stands
  case h_5 stands => exact Option.some.inj taken ▸ .closedAll stands
  case h_6 stands => exact Option.some.inj taken ▸ .poll stands
  case h_7 stands =>
    unfold Server.handleEvent at taken
    split at taken
    · next listener => exact Option.some.inj taken ▸ .accept stands listener
    · next other =>
        split at taken
        · next waiting => exact Option.some.inj taken ▸ .dispatch stands other waiting
        · next idle =>
            split at taken
            · next position =>
                split at taken
                · next found => exact .unixStream stands other idle position found taken
                · cases taken
            · next nowhere => exact Option.some.inj taken ▸ .unknown stands other idle nowhere
  case h_8 stands => exact Option.some.inj taken ▸ .handled stands
  case h_9 => cases taken

/-- A promise on the steps of the server; the sockets are free. -/
def OnInput (promise : Server → ServerInput → Prop) (server : Server) : ServerLabel → Prop
  | .input input => promise server input
  | .socket _ _ => True

instance (promise : Server → ServerInput → Prop)
    [∀ server input, Decidable (promise server input)] (server : Server)
    (label : ServerLabel)
    : Decidable (server.OnInput promise label) :=
  match label with
  | .input input => inferInstanceAs (Decidable (promise server input))
  | .socket _ _ => isTrue trivial

/-- A loop that has ended takes no step. -/
theorem Takes.runs (takes : server.Takes cfg bincode input after) : server.phase.running := by
  cases takes <;> (rw [‹server.phase = _›]; rfl)

/-- The tokens of the worker sockets, in order. -/
def socketTokens (server : Server) : List Token := server.unixStreams.map (·.token)

end Server

-----------------------------------------------------------------------------------------
-- What calls on the worker sockets keep
-----------------------------------------------------------------------------------------

/-- A call that keeps the socket's token and gives it no further request to send, and no
descriptor without a request.
-/
structure UnixStream.Keeps (before after : UnixStream) : Prop where
  token : after.token = before.token
  toSend : after.msgBuffer.toSend <:+ before.msgBuffer.toSend
  fds : before.msgBuffer.toSend = [] → after.stream.fds = before.stream.fds

namespace UnixStream

theorem Keeps.refl (self : UnixStream) : self.Keeps self :=
  ⟨rfl, List.suffix_refl _, fun _ => rfl⟩

/-- Two calls keep what each of them keeps. -/
theorem Keeps.trans {before middle after : UnixStream} (first : before.Keeps middle)
    (second : middle.Keeps after)
    : before.Keeps after where
  token := second.token.trans first.token
  toSend := second.toSend.trans first.toSend
  fds := by
    intro none
    have still : middle.msgBuffer.toSend = [] := List.suffix_nil.mp (none ▸ first.toSend)
    rw [second.fds still, first.fds none]

theorem keeps_reregister (self : UnixStream) (succeeds : Bool) (registry : TokenMap Interest)
    : self.Keeps (self.reregister succeeds registry).1 := by
  obtain ⟨interest, same⟩ := self.reregister_interest succeeds registry
  rw [same]
  exact ⟨rfl, List.suffix_refl _, fun _ => rfl⟩

/-- Tokens are taken out of a queue of responses. -/
theorem keeps_nextToken {self next : UnixStream} {tk : Token}
    {pop : ServerMsgBuffer → Option (Token × ServerMsgBuffer)}
    (pops
      : ∀ {buffer after : ServerMsgBuffer} {tk},
          pop buffer = some (tk, after) → after.toSend = buffer.toSend)
    (taken : self.nextToken pop = .ok (some (tk, next)))
    : self.Keeps next := by
  unfold UnixStream.nextToken at taken
  split at taken
  · cases taken
  · next popped =>
      split at taken
      · cases taken
      · obtain ⟨-, rfl⟩ := Prod.mk.inj (Option.some.inj (Except.ok.inj taken))
        exact ⟨rfl, pops popped ▸ List.suffix_refl _, fun _ => rfl⟩

/-- Draining such a queue, by induction on the fuel. -/
theorem keeps_drain {pop : ServerMsgBuffer → Option (Token × ServerMsgBuffer)}
    (pops
      : ∀ {buffer after : ServerMsgBuffer} {tk},
          pop buffer = some (tk, after) → after.toSend = buffer.toSend)
    {fuel : Nat} {self after : UnixStream} {tks : List Token}
    (drained : self.drain (nextToken pop) fuel = .ok (tks, after))
    : self.Keeps after := by
  induction fuel generalizing self tks with
  | zero =>
      obtain ⟨-, rfl⟩ := Prod.mk.inj (Except.ok.inj drained)
      exact .refl self
  | succ fuel ih =>
      simp only [UnixStream.drain] at drained
      split at drained
      · cases drained
      · obtain ⟨-, rfl⟩ := Prod.mk.inj (Except.ok.inj drained)
        exact .refl self
      · next taken =>
          split at drained
          · cases drained
          · next more =>
              obtain ⟨-, rfl⟩ := Prod.mk.inj (Except.ok.inj drained)
              exact (keeps_nextToken pops taken).trans (ih more)

/-- A read changes the queues of responses only. -/
theorem keeps_readStream {bincode : Bincode} {self next : UnixStream}
    {read : Except IoError Nat} (reads : self.readStream bincode read = some (.ok next))
    : self.Keeps next := by
  obtain ⟨⟨bytes, socket⟩, gave, decoded⟩ := Option.map_eq_some_iff.mp reads
  have fds : socket.fds = self.stream.fds := by
    unfold UnixSocket.serverReads at gave
    split at gave
    · obtain ⟨-, rfl⟩ := Prod.mk.inj (Option.some.inj gave)
      rfl
    · split at gave
      · obtain ⟨-, rfl⟩ := Prod.mk.inj (Option.some.inj gave)
        rfl
      · cases gave
  obtain ⟨grown, grows, -⟩ := self.msgBuffer.growReadBuffer_spec
  simp only [ServerMsgBuffer.readUnixStream, grows] at decoded
  split at decoded
  · obtain rfl := Except.ok.inj decoded
    exact ⟨rfl, List.suffix_refl _, fun _ => fds⟩
  · split at decoded
    · cases decoded
    · obtain rfl := Except.ok.inj decoded
      refine ⟨rfl, ?_, fun _ => fds⟩
      simp only [ServerMsgBuffer.foldl_pushResponse, List.suffix_refl]

/-- A write takes requests off the front of the queue. -/
theorem keeps_writeStream (bincode : Bincode) (self : UnixStream) (accepted : Nat)
    (write : Except IoError Nat)
    : self.Keeps (self.writeStream bincode accepted write) := by
  obtain ⟨sent, rest, kept, result, split, wrote, -⟩ :=
    self.msgBuffer.writeUnixStream_spec bincode accepted write
  refine ⟨rfl, ?_, ?_⟩
  · simp only [UnixStream.writeStream, wrote, split]
    exact List.suffix_append _ _
  · intro none
    obtain ⟨rfl, -⟩ := List.append_eq_nil_iff.mp (split.symm.trans none)
    simp only [UnixStream.writeStream, wrote, UnixSocket.serverWrote, List.map_nil,
      List.append_nil]

end UnixStream

/-- Popping a token to be kept alive leaves the requests. -/
theorem ServerMsgBuffer.nextStreamTk_toSend {buffer after : ServerMsgBuffer} {tk : Token}
    (popped : buffer.nextStreamTk = some (tk, after))
    : after.toSend = buffer.toSend := by
  unfold nextStreamTk at popped
  split at popped
  · cases popped
  · obtain ⟨-, rfl⟩ := Prod.mk.inj (Option.some.inj popped)
    rfl

/-- Popping a token to be closed leaves the requests. -/
theorem ServerMsgBuffer.nextStreamCloseTk_toSend {buffer after : ServerMsgBuffer}
    {tk : Token} (popped : buffer.nextStreamCloseTk = some (tk, after))
    : after.toSend = buffer.toSend := by
  unfold nextStreamCloseTk at popped
  split at popped
  · cases popped
  · obtain ⟨-, rfl⟩ := Prod.mk.inj (Option.some.inj popped)
    rfl

namespace UnixStreams

/-- Every socket keeps what a call on it keeps. -/
abbrev Keep (before after : List UnixStream) : Prop :=
  List.Forall₂ UnixStream.Keeps before after

theorem Keep.refl (streams : List UnixStream) : Keep streams streams :=
  List.forall₂_same.mpr fun stream _ => .refl stream

theorem Keep.trans {before middle after : List UnixStream} (first : Keep before middle)
    (second : Keep middle after)
    : Keep before after :=
  forall₂_trans (fun left right => left.trans right) first second

/-- Kept tokens are the same tokens. -/
theorem Keep.tokens {before after : List UnixStream} (keep : Keep before after)
    : after.map (·.token) = before.map (·.token) :=
  forall₂_map_eq (fun keeps => keeps.token) keep

/-- Reregistering every socket, by induction on the sockets. -/
theorem keep_reregister (succeeds : Token → Bool) (streams : List UnixStream)
    (registry : TokenMap Interest)
    : Keep streams (reregister succeeds streams registry).1 := by
  induction streams generalizing registry with
  | nil => exact .nil
  | cons stream rest ih => exact .cons (stream.keeps_reregister _ _) (ih _)

/-- Draining every socket, by induction on the sockets. -/
theorem keep_drainAll {pop : ServerMsgBuffer → Option (Token × ServerMsgBuffer)}
    (pops
      : ∀ {buffer after : ServerMsgBuffer} {tk},
          pop buffer = some (tk, after) → after.toSend = buffer.toSend)
    {waiting : UnixStream → Nat} {streams after : List UnixStream} {tks : List Token}
    (drained : drainAll (UnixStream.nextToken pop) waiting streams = .ok (tks, after))
    : Keep streams after := by
  induction streams generalizing tks after with
  | nil =>
      obtain ⟨-, rfl⟩ := Prod.mk.inj (Except.ok.inj drained)
      exact .nil
  | cons stream rest ih =>
      simp only [drainAll] at drained
      split at drained
      · cases drained
      · next first =>
          split at drained
          · cases drained
          · next others =>
              obtain ⟨-, rfl⟩ := Prod.mk.inj (Except.ok.inj drained)
              exact .cons (UnixStream.keeps_drain pops first) (ih others)

/-- One socket replaced by one with its token. -/
theorem set_tokens {streams : List UnixStream} {n : Nat} {stream : UnixStream}
    (next : UnixStream) (found : streams[n]? = some stream)
    (same : next.token = stream.token)
    : (streams.set n next).map (·.token) = streams.map (·.token) := by
  obtain ⟨within, there⟩ := List.getElem?_eq_some_iff.mp found
  rw [List.map_set, same, ← there, ← List.map_set, List.set_getElem_self]

/-- One socket replaced by one that a call on it leaves. -/
theorem Keep.set {streams : List UnixStream} {n : Nat} {stream next : UnixStream}
    (found : streams[n]? = some stream) (keeps : stream.Keeps next)
    : Keep streams (streams.set n next) :=
  forall₂_set UnixStream.Keeps.refl found keeps

/-- Dispatching puts a request on the least loaded socket, if there is one. -/
theorem msgSendTcpStream_ok {streams after : List UnixStream} {tk : Token} {fd : RawFd}
    (sent : msgSendTcpStream streams tk fd = .ok after)
    : ∃ stream,
        streams[leastLoaded streams]? = some stream
        ∧ after = streams.set (leastLoaded streams) (stream.msgSendTcpStream tk fd) := by
  unfold msgSendTcpStream at sent
  split at sent
  · cases sent
  · next stream found => exact ⟨stream, found, (Except.ok.inj sent).symm⟩

/-- A token without a position is no socket's. -/
theorem position?_eq_none {streams : List UnixStream} {tk : Token}
    (nowhere : position? streams tk = none)
    : tk ∉ streams.map (·.token) := by
  intro member
  obtain ⟨stream, among, rfl⟩ := List.mem_map.mp member
  have other := List.findIdx?_eq_none_iff.mp nowhere stream among
  simp at other

end UnixStreams

namespace Server

variable {cfg : Config} {bincode : Bincode} {server after : Server} {input : ServerInput}

/-- An event of a worker socket changes that socket as calls do, or panics. -/
theorem unixStreamEvent_frame {n : Nat} {stream : UnixStream} {ev : MioEvent} {io : EventIo}
    (taken : server.unixStreamEvent bincode n stream ev io = some after)
    : (∃ panic, after = { server with phase := .panicked panic })
      ∨ ∃ next : UnixStream,
          stream.Keeps next
          ∧ after = { server with unixStreams := server.unixStreams.set n next } := by
  obtain ⟨result, read, rfl⟩ := Option.map_eq_some_iff.mp taken
  cases result with
  | error panic => exact .inl ⟨panic, rfl⟩
  | ok between =>
      have first : stream.Keeps between := by
        split at read
        · exact UnixStream.keeps_readStream read
        · obtain rfl := Except.ok.inj (Option.some.inj read)
          exact .refl stream
      refine .inr ⟨_, first.trans ?_, rfl⟩
      split
      · exact between.keeps_writeStream bincode io.accepted io.write
      · exact .refl between

/-- The start of an iteration changes the sockets as calls do, and the registry. -/
theorem startIteration_frame (server : Server) (registers : Token → Bool)
    : ∃ unixStreams registry phase,
        server.startIteration registers = { server with unixStreams, registry, phase }
        ∧ UnixStreams.Keep server.unixStreams unixStreams
        ∧ ((∃ tks, phase = .keepAlive tks) ∨ ∃ panic, phase = .panicked panic) := by
  unfold Server.startIteration
  simp only
  split
  · next panic drained => exact ⟨_, _, _, rfl, .refl _, .inr ⟨panic, rfl⟩⟩
  · next tks streams drained =>
      refine ⟨_, _, _, rfl, ?_, .inl ⟨tks, rfl⟩⟩
      exact (UnixStreams.keep_reregister ..).trans
        (UnixStreams.keep_drainAll ServerMsgBuffer.nextStreamTk_toSend drained)

/-- The exit tests return, or the iteration starts. -/
theorem loopTop_cases (cfg : Config) (server : Server) (elapsed : Option Duration)
    (closeNow : Bool) (registers : Token → Bool)
    : server.loopTop cfg elapsed closeNow registers = server.startIteration registers
      ∨ (server.loopTop cfg elapsed closeNow registers
          = { server with phase := .returned (.ok ()) }
        ∧ ((server.runShutdown = true ∧ server.processingStreams.keys = [])
          ∨ (server.ctrlcInstant.isSome ∧ elapsed = none)
          ∨ closeNow))
      ∨ ∃ time,
          server.ctrlcInstant.isSome
          ∧ elapsed = some time
          ∧ cfg.ctrlcWaitTime ≤ time
          ∧ server.loopTop cfg elapsed closeNow registers
            = { server.shutdownProcessing with phase := .returned (.ok ()) } := by
  unfold Server.loopTop
  split
  · next empty =>
      rw [Bool.and_eq_true, List.isEmpty_iff] at empty
      exact .inr (.inl ⟨rfl, .inl empty⟩)
  · split
    · next instant back =>
        refine .inr (.inl ⟨rfl, .inr (.inl ⟨?_, rfl⟩)⟩)
        rw [back]
        rfl
    · split
      · next since waited =>
          refine .inr (.inr ⟨_, ?_, rfl, waited, rfl⟩)
          rw [since]
          rfl
      · split
        · next close => exact .inr (.inl ⟨rfl, .inr (.inr close)⟩)
        · exact .inl rfl
    · split
      · next close => exact .inr (.inl ⟨rfl, .inr (.inr close)⟩)
      · exact .inl rfl

/-- Taking the tokens to be closed changes the sockets as calls do. -/
theorem takeCloseTks_frame (server : Server)
    : ∃ unixStreams phase,
        server.takeCloseTks = { server with unixStreams, phase }
        ∧ UnixStreams.Keep server.unixStreams unixStreams
        ∧ ((∃ tks, phase = .closing tks) ∨ ∃ panic, phase = .panicked panic) := by
  unfold Server.takeCloseTks
  split
  · next panic drained => exact ⟨_, _, rfl, .refl _, .inr ⟨panic, rfl⟩⟩
  · next tks streams drained =>
      refine ⟨_, _, rfl, ?_, .inl ⟨tks, rfl⟩⟩
      exact UnixStreams.keep_drainAll ServerMsgBuffer.nextStreamCloseTk_toSend drained

/-- Only a poll can start the shutdown. -/
theorem Takes.sameShutdown (takes : server.Takes cfg bincode input after)
    (elsewhere : server.phase ≠ .polling)
    : after.runShutdown = server.runShutdown := by
  cases takes with
  | top =>
      rcases server.loopTop_cases cfg _ _ _ with
        starts | ⟨returns, -⟩ | ⟨time, -, -, -, returns⟩
      · obtain ⟨streams, registry, phase, started, -, -⟩ := server.startIteration_frame _
        rw [starts, started]
      · rw [returns]
      · rw [returns]
        rfl
  | keepAlive =>
      unfold Server.keepAliveStream
      split
      · rfl
      · simp only
        split
        · rfl
        · split <;> rfl
  | keptAll =>
      obtain ⟨streams, phase, closing, -, -⟩ := server.takeCloseTks_frame
      rw [closing]
  | close =>
      unfold Server.closeStream
      split <;> rfl
  | closedAll => rfl
  | poll stands => exact absurd stands elsewhere
  | accept =>
      unfold Server.acceptStream
      split
      · rfl
      · simp only
        split
        · rfl
        · split <;> rfl
  | dispatch =>
      unfold Server.dispatchStream
      simp only
      split
      · split <;> rfl
      · rfl
  | unixStream stands other idle position found taken =>
      rcases unixStreamEvent_frame taken with ⟨panic, rfl⟩ | ⟨next, keeps, rfl⟩
      · rfl
      · rfl
  | unknown => rfl
  | handled => rfl

/-- Where the loop polls, it takes what a poll returns. -/
theorem Takes.polls (takes : server.Takes cfg bincode input after)
    (polling : server.phase = .polling)
    : ∃ events running now deregisters, input = .poll events running now deregisters := by
  cases takes with
  | poll => exact ⟨_, _, _, _, rfl⟩
  | _ =>
      have stands := ‹server.phase = _›
      rw [polling] at stands
      cases stands

/-- A loop that goes on after an event has the rest of the batch at hand. -/
theorem step_event {io : EventIo} (taken : server.step cfg bincode (.event io) = some after)
    (runs : after.phase.running = true)
    : ∃ ev evs, server.phase = .events (ev :: evs) ∧ after.phase = .events evs := by
  cases step_takes taken with
  | @accept ev evs io stands =>
      refine ⟨ev, evs, stands, ?_⟩
      unfold Server.acceptStream
      split
      · rfl
      · simp only
        split
        · rfl
        · split <;> rfl
  | @dispatch ev evs io tcpStream stands other waiting =>
      refine ⟨ev, evs, stands, ?_⟩
      unfold Server.dispatchStream at runs ⊢
      simp only at runs ⊢
      split
      · next registers =>
          rw [if_pos registers] at runs
          split at runs
          · cases runs
          · rfl
      · rfl
  | @unixStream ev evs io n stream after stands other idle position found taken =>
      refine ⟨ev, evs, stands, ?_⟩
      rcases unixStreamEvent_frame taken with ⟨panic, rfl⟩ | ⟨next, keeps, rfl⟩
      · cases runs
      · rfl
  | unknown => cases runs

end Server
end Casket
