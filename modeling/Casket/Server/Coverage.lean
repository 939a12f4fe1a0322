import Casket.Server.Steps

/-! The request counters of the worker sockets, in any run: a counter covers whatever is still
on its worker's lane, so bytes that wait to be read belong to a counted request.
-/

namespace Casket

open Lib

/-- The socket and its worker represent a mailbox with no more copies than `num_reqs`. -/
def UnixStream.Covers (bincode : Bincode) (self : UnixStream) (worker : WorkerMsgBuffer)
    : Prop :=
  ∃ box : Mailbox,
    box.Represents bincode self.msgBuffer self.stream worker
    ∧ box.outstanding.length ≤ self.numReqs

/-- What taking tokens out of a socket's queues leaves as it was. -/
structure UnixStream.Drained (before after : UnixStream) : Prop where
  token : after.token = before.token
  stream : after.stream = before.stream
  interest : after.interest = before.interest
  data : after.msgBuffer.hasDataToSend = before.msgBuffer.hasDataToSend
  fewer : after.numReqs ≤ before.numReqs

namespace UnixStream

variable {bincode : Bincode} {self after : UnixStream} {worker : WorkerMsgBuffer}

theorem Drained.refl (self : UnixStream) : self.Drained self :=
  ⟨rfl, rfl, rfl, rfl, Nat.le_refl _⟩

theorem Drained.trans {before middle after : UnixStream} (first : before.Drained middle)
    (second : middle.Drained after)
    : before.Drained after where
  token := second.token.trans first.token
  stream := second.stream.trans first.stream
  interest := second.interest.trans first.interest
  data := second.data.trans first.data
  fewer := Nat.le_trans second.fewer first.fewer

/-- A fresh socket and a fresh worker hold nothing. -/
theorem covers_new (bincode : Bincode) (token : Token)
    : (UnixStream.new token .pair).Covers bincode .new :=
  ⟨.empty, .new bincode, Nat.le_refl _⟩

/-- Unread bytes are part of a response to a counted request. -/
theorem Covers.unread (covers : self.Covers bincode worker)
    (unread : self.stream.toServer ≠ [])
    : 0 < self.numReqs := by
  obtain ⟨box, rep, counted⟩ := covers
  have responses : box.responses ≠ [] := by
    intro none_
    have bytes := rep.responses.bytes
    rw [none_] at bytes
    have empty := List.append_eq_nil_iff.mp (List.append_eq_nil_iff.mp bytes).2
    exact unread empty.1
  have positive := List.length_pos_iff.mpr responses
  have within : box.responses.length ≤ box.outstanding.length := by
    simp only [Mailbox.outstanding, List.length_append, List.length_map]
    omega
  omega

/-- Reregistering leaves the lane alone. -/
theorem Covers.reregister (covers : self.Covers bincode worker) (succeeds : Bool)
    (registry : TokenMap Interest)
    : (self.reregister succeeds registry).1.Covers bincode worker := by
  unfold UnixStream.reregister
  split
  · exact covers
  · split
    · exact covers
    · exact covers

/-- Dispatching adds a copy and counts it. -/
theorem Covers.msgSendTcpStream (covers : self.Covers bincode worker) (tk : Token)
    (fd : RawFd)
    : (self.msgSendTcpStream tk fd).Covers bincode worker := by
  obtain ⟨box, rep, counted⟩ := covers
  refine ⟨_, rep.reqTcpStreamFd tk fd, ?_⟩
  have more : (self.msgSendTcpStream tk fd).numReqs = self.numReqs + 1 := rfl
  simp only [Mailbox.outstanding, List.length_append, List.length_map, List.length_cons,
    List.length_nil, more] at counted ⊢
  omega

/-- A read takes whole responses off the wire, without a panic. -/
theorem Covers.readStream (covers : self.Covers bincode worker)
    {read : Except IoError Nat} {result : Except Panic UnixStream}
    (reads : self.readStream bincode read = some result)
    : ∃ after : UnixStream,
        result = .ok after
        ∧ after.Covers bincode worker := by
  obtain ⟨box, rep, counted⟩ := covers
  obtain ⟨⟨bytes, socket⟩, received, rfl⟩ := Option.map_eq_some_iff.mp reads
  obtain ⟨done, left, next, decoded, split, decodes, -, after⟩ := rep.serverRead received
  have moves := (Mailbox.Moves.decoded split).counted
  refine ⟨{ self with stream := socket, msgBuffer := next }, ?_, _, after, ?_⟩
  · simp only [decodes, Except.map]
  · simp only [List.length_nil, Nat.zero_add] at moves
    rw [moves]
    exact counted

/-- A write moves requests to the wire. -/
theorem Covers.writeStream (covers : self.Covers bincode worker) (accepted : Nat)
    (write : Except IoError Nat)
    : (self.writeStream bincode accepted write).Covers bincode worker := by
  obtain ⟨box, rep, counted⟩ := covers
  obtain ⟨sent, rest, next, fds, result, split, wrote, after⟩ :=
    rep.serverWrote accepted write
  have moves := (Mailbox.Moves.sent split (box.fds ++ sent.map Prod.snd)).counted
  simp only [List.length_nil, Nat.zero_add] at moves
  simp only [UnixStream.Covers, UnixStream.writeStream, wrote]
  exact ⟨_, after, moves.trans_le counted⟩

/-- Popping a token that was counted. -/
theorem Covers.popped {pop : ServerMsgBuffer → Option (Token × ServerMsgBuffer)}
    {tk : Token} {next : ServerMsgBuffer} {box after : Mailbox}
    (popped : pop self.msgBuffer = some (tk, next))
    (counted : box.outstanding.length ≤ self.numReqs)
    (rep : after.Represents bincode next self.stream worker)
    (moves : Mailbox.Moves box after [tk])
    : ∃ following : UnixStream,
        self.nextToken pop = .ok (some (tk, following))
        ∧ following.Covers bincode worker := by
  have one := moves.counted
  simp only [List.length_singleton] at one
  have positive : self.numReqs ≠ 0 := by
    omega
  refine ⟨{ self with msgBuffer := next, numReqs := self.numReqs - 1 }, ?_, after, rep, ?_⟩
  · simp only [UnixStream.nextToken, popped, positive, if_false]
  · change after.outstanding.length ≤ self.numReqs - 1
    omega

/-- A worker's call moves copies on its lane, or pairs one. -/
theorem Covers.workerCalled (covers : self.Covers bincode worker) {op : LinkOp}
    (side : op.byWorker) (short : (self.link worker).ShortResponse bincode op) {link : Link}
    (called : (self.link worker).step bincode op = some link)
    (calm : link.panicked = none)
    : Covers bincode { self with stream := link.socket } link.worker := by
  obtain ⟨box, rep, counted⟩ := covers
  obtain ⟨box', after, moves | ⟨msg, msgs, fds, first, rfl⟩⟩ :=
    Lane.workerCalled rep side short called calm
  · have same := moves.counted
    refine ⟨box', after, ?_⟩
    simp only [List.length_nil, Nat.zero_add] at same
    rw [same]
    exact counted
  · -- a token that is held already is held once, so a copy may be lost here
    refine ⟨_, after, Nat.le_trans ?_ counted⟩
    have held : (box.serverFds.insert msg.token msg.fd).keys.length
        ≤ box.serverFds.keys.length + 1 := by
      rw [AList.keys_insert, List.length_cons]
      exact Nat.succ_le_succ List.erase_sublist.length_le
    simp only [Mailbox.outstanding, first, List.length_append, List.length_map,
      List.length_cons]
    omega

/-- `pop` takes the tokens of a lane one at a time. -/
def Pops (pop : ServerMsgBuffer → Option (Token × ServerMsgBuffer)) : Prop :=
  ∀ {bincode : Bincode} {buffer next : ServerMsgBuffer} {socket : UnixSocket}
    {worker : WorkerMsgBuffer} {box : Mailbox} {tk : Token},
    box.Represents bincode buffer socket worker →
    pop buffer = some (tk, next) →
    ∃ after : Mailbox,
      after.Represents bincode next socket worker
      ∧ Mailbox.Moves box after [tk]

theorem pops_nextStreamTk : Pops ServerMsgBuffer.nextStreamTk := by
  intro bincode buffer next socket worker box tk rep popped
  obtain ⟨fd, rest, first, after⟩ := rep.nextStreamTk popped
  exact ⟨_, after, .kept first⟩

theorem pops_nextStreamCloseTk : Pops ServerMsgBuffer.nextStreamCloseTk := by
  intro bincode buffer next socket worker box tk rep popped
  obtain ⟨fd, rest, first, after⟩ := rep.nextStreamCloseTk popped
  exact ⟨_, after, .closed first⟩

/-- Taking one token, or finding none, leaves everything else as it was. -/
theorem Covers.nextToken (covers : self.Covers bincode worker)
    {pop : ServerMsgBuffer → Option (Token × ServerMsgBuffer)} (pops : Pops pop)
    (data
      : ∀ {buffer next : ServerMsgBuffer} {tk},
          pop buffer = some (tk, next) → next.hasDataToSend = buffer.hasDataToSend)
    : self.nextToken pop = .ok none
      ∨ ∃ tk following,
          self.nextToken pop = .ok (some (tk, following))
          ∧ self.Drained following
          ∧ following.Covers bincode worker := by
  cases popped : pop self.msgBuffer with
  | none => exact .inl (by simp only [UnixStream.nextToken, popped])
  | some pair =>
      obtain ⟨box, rep, counted⟩ := covers
      obtain ⟨after, rep, moves⟩ := pops rep popped
      obtain ⟨following, taken, covers⟩ := Covers.popped popped counted rep moves
      refine .inr ⟨pair.1, following, taken, ?_, covers⟩
      simp only [UnixStream.nextToken, popped] at taken
      split at taken
      · cases taken
      · obtain ⟨-, rfl⟩ := Prod.mk.inj (Option.some.inj (Except.ok.inj taken))
        exact ⟨rfl, rfl, rfl, data popped, Nat.sub_le _ _⟩

/-- Draining takes counted tokens only, without a panic. Witness: induction on the fuel. -/
theorem Covers.drain (covers : self.Covers bincode worker)
    {pop : ServerMsgBuffer → Option (Token × ServerMsgBuffer)} (pops : Pops pop)
    (data
      : ∀ {buffer next : ServerMsgBuffer} {tk},
          pop buffer = some (tk, next) → next.hasDataToSend = buffer.hasDataToSend)
    (fuel : Nat)
    : ∃ tks following,
        self.drain (UnixStream.nextToken pop) fuel = .ok (tks, following)
        ∧ self.Drained following
        ∧ following.Covers bincode worker := by
  induction fuel generalizing self with
  | zero => exact ⟨[], self, rfl, .refl self, covers⟩
  | succ fuel ih =>
      rcases covers.nextToken pops data with empty | ⟨tk, middle, popped, first, between⟩
      · exact ⟨[], self, by simp only [UnixStream.drain, empty], .refl self, covers⟩
      · obtain ⟨tks, following, drained, more, covers⟩ := ih between
        refine ⟨tk :: tks, following, ?_, first.trans more, covers⟩
        simp only [UnixStream.drain, popped, drained]

/-- Popping a token to be kept alive leaves the data to send. -/
theorem hasDataToSend_nextStreamTk {buffer next : ServerMsgBuffer} {tk : Token}
    (popped : buffer.nextStreamTk = some (tk, next))
    : next.hasDataToSend = buffer.hasDataToSend := by
  unfold ServerMsgBuffer.nextStreamTk at popped
  split at popped
  · cases popped
  · obtain ⟨-, rfl⟩ := Prod.mk.inj (Option.some.inj popped)
    rfl

/-- Popping a token to be closed leaves the data to send. -/
theorem hasDataToSend_nextStreamCloseTk {buffer next : ServerMsgBuffer} {tk : Token}
    (popped : buffer.nextStreamCloseTk = some (tk, next))
    : next.hasDataToSend = buffer.hasDataToSend := by
  unfold ServerMsgBuffer.nextStreamCloseTk at popped
  split at popped
  · cases popped
  · obtain ⟨-, rfl⟩ := Prod.mk.inj (Option.some.inj popped)
    rfl

end UnixStream

-----------------------------------------------------------------------------------------
-- All worker sockets
-----------------------------------------------------------------------------------------

namespace UnixStreams

/-- Every socket's counter covers its lane. -/
abbrev Cover (bincode : Bincode) (streams : List UnixStream) (workers : List WorkerMsgBuffer)
    : Prop :=
  List.Forall₂ (UnixStream.Covers bincode) streams workers

variable {bincode : Bincode} {streams : List UnixStream} {workers : List WorkerMsgBuffer}

/-- One socket replaced by one that covers what it covered. -/
theorem Cover.set (cover : Cover bincode streams workers) {n : Nat}
    {stream next : UnixStream} (found : streams[n]? = some stream)
    (keeps : ∀ worker, stream.Covers bincode worker → next.Covers bincode worker)
    : Cover bincode (streams.set n next) workers := by
  obtain ⟨worker, behind, covers⟩ := forall₂_getElem? cover.flip found
  have covered := forall₂_set_both cover n (keeps worker covers)
  obtain ⟨within, rfl⟩ := List.getElem?_eq_some_iff.mp behind
  rwa [List.set_getElem_self] at covered

/-- Reregistering every socket, by induction on the sockets. -/
theorem Cover.reregister (cover : Cover bincode streams workers) (succeeds : Token → Bool)
    (registry : TokenMap Interest)
    : Cover bincode (UnixStreams.reregister succeeds streams registry).1 workers := by
  induction cover generalizing registry with
  | nil => exact .nil
  | cons covers _ ih => exact .cons (covers.reregister _ _) (ih _)

/-- Draining every socket, by induction on the sockets. -/
theorem Cover.drainAll (cover : Cover bincode streams workers)
    {pop : ServerMsgBuffer → Option (Token × ServerMsgBuffer)} (pops : UnixStream.Pops pop)
    (data
      : ∀ {buffer next : ServerMsgBuffer} {tk},
          pop buffer = some (tk, next) → next.hasDataToSend = buffer.hasDataToSend)
    (waiting : UnixStream → Nat)
    : ∃ tks after,
        UnixStreams.drainAll (UnixStream.nextToken pop) waiting streams = .ok (tks, after)
        ∧ List.Forall₂ UnixStream.Drained streams after
        ∧ Cover bincode after workers := by
  induction cover with
  | nil => exact ⟨[], [], rfl, .nil, .nil⟩
  | @cons stream worker rest others covers _ ih =>
      obtain ⟨tks, first, drained, left, covered⟩ := covers.drain pops data (waiting stream)
      obtain ⟨more, after, done, all, cover⟩ := ih
      refine ⟨tks ++ more, first :: after, ?_, .cons left all, .cons covered cover⟩
      simp only [UnixStreams.drainAll, drained, done]

end UnixStreams

namespace Server

variable {cfg : Config} {bincode : Bincode} {server after : Server} {input : ServerInput}
  {workers : List WorkerMsgBuffer}

/-- The start of an iteration never panics, and changes the interests and counters only. -/
theorem startIteration_covers
    (cover : UnixStreams.Cover bincode server.unixStreams workers)
    (registers : Token → Bool)
    : ∃ tks unixStreams,
        server.startIteration registers
          = { server with
              unixStreams
              registry :=
                (UnixStreams.reregister registers server.unixStreams server.registry).2
              phase := .keepAlive tks }
        ∧ List.Forall₂ UnixStream.Drained
            (UnixStreams.reregister registers server.unixStreams server.registry).1
            unixStreams
        ∧ UnixStreams.Cover bincode unixStreams workers := by
  have registered := cover.reregister registers server.registry
  obtain ⟨tks, unixStreams, drained, left, covered⟩ :=
    registered.drainAll UnixStream.pops_nextStreamTk
      UnixStream.hasDataToSend_nextStreamTk (·.msgBuffer.streamTks.length)
  refine ⟨tks, unixStreams, ?_, left, covered⟩
  have drained : UnixStreams.nextStreamTks
      (UnixStreams.reregister registers server.unixStreams server.registry).1
      = .ok (tks, unixStreams) := drained
  simp only [Server.startIteration, drained]

/-- Taking the tokens to be closed never panics, and changes the counters only. -/
theorem takeCloseTks_covers (cover : UnixStreams.Cover bincode server.unixStreams workers)
    : ∃ tks unixStreams,
        server.takeCloseTks = { server with unixStreams, phase := .closing tks }
        ∧ List.Forall₂ UnixStream.Drained server.unixStreams unixStreams
        ∧ UnixStreams.Cover bincode unixStreams workers := by
  obtain ⟨tks, unixStreams, drained, left, covered⟩ :=
    cover.drainAll UnixStream.pops_nextStreamCloseTk
      UnixStream.hasDataToSend_nextStreamCloseTk (·.msgBuffer.streamCloseTks.length)
  refine ⟨tks, unixStreams, ?_, left, covered⟩
  have drained : UnixStreams.nextStreamCloseTks server.unixStreams
      = .ok (tks, unixStreams) := drained
  simp only [Server.takeCloseTks, drained]

/-- An event of a covered socket is handled without a panic. -/
theorem unixStreamEvent_covers {n : Nat} {stream : UnixStream} {ev : MioEvent} {io : EventIo}
    {worker : WorkerMsgBuffer} (covers : stream.Covers bincode worker)
    (taken : server.unixStreamEvent bincode n stream ev io = some after)
    : ∃ next : UnixStream,
        after = { server with unixStreams := server.unixStreams.set n next }
        ∧ ∀ worker, stream.Covers bincode worker → next.Covers bincode worker := by
  obtain ⟨result, read, rfl⟩ := Option.map_eq_some_iff.mp taken
  obtain ⟨between, rfl⟩ : ∃ between : UnixStream, result = .ok between := by
    split at read
    · obtain ⟨between, rfl, -⟩ := covers.readStream read
      exact ⟨between, rfl⟩
    · exact ⟨stream, (Option.some.inj read).symm⟩
  refine ⟨_, rfl, ?_⟩
  intro worker covers
  have covered : between.Covers bincode worker := by
    split at read
    · obtain ⟨same, equal, covered⟩ := covers.readStream read
      exact Except.ok.inj equal ▸ covered
    · exact Except.ok.inj (Option.some.inj read) ▸ covers
  split
  · exact covered.writeStream io.accepted io.write
  · exact covered

/-- Every step of the server keeps the sockets covered. Witness: one case for each branch. -/
theorem step_covers (cover : UnixStreams.Cover bincode server.unixStreams workers)
    (taken : server.step cfg bincode input = some after)
    : UnixStreams.Cover bincode after.unixStreams workers := by
  cases step_takes taken with
  | @top elapsed closeNow registers stands =>
      rcases server.loopTop_cases cfg elapsed closeNow registers with
        starts | ⟨returns, -⟩ | ⟨time, -, -, -, returns⟩
      · obtain ⟨tks, unixStreams, started, -, covered⟩ :=
          startIteration_covers cover registers
        rw [starts, started]
        exact covered
      · rw [returns]
        exact cover
      · rw [returns]
        exact cover
  | keepAlive =>
      unfold Server.keepAliveStream
      split
      · exact cover
      · simp only
        split
        · exact cover
        · split <;> exact cover
  | keptAll =>
      obtain ⟨tks, unixStreams, taken, -, covered⟩ := takeCloseTks_covers cover
      rw [taken]
      exact covered
  | close =>
      unfold Server.closeStream
      split <;> exact cover
  | closedAll => exact cover
  | poll =>
      unfold Server.polled
      split <;> exact cover
  | accept =>
      unfold Server.acceptStream
      split
      · exact cover
      · simp only
        split
        · exact cover
        · split <;> exact cover
  | dispatch =>
      unfold Server.dispatchStream
      simp only
      split
      · split
        · exact cover
        · next sent =>
            obtain ⟨stream, found, rfl⟩ := UnixStreams.msgSendTcpStream_ok sent
            exact cover.set found fun worker covers => covers.msgSendTcpStream _ _
      · exact cover
  | @unixStream ev evs io n stream after stands other idle position found taken =>
      obtain ⟨worker, behind, covers⟩ := forall₂_getElem? cover.flip found
      obtain ⟨next, rfl, keeps⟩ := unixStreamEvent_covers covers taken
      exact cover.set found keeps
  | unknown => exact cover
  | handled => exact cover

end Server

/-- Every call of a worker keeps the sockets covered. -/
theorem Net.workerStep_covers {bincode : Bincode} {net after : Net} {n : Nat} {op : LinkOp}
    (cover : UnixStreams.Cover bincode net.server.unixStreams net.workers)
    (short
      : ∀ stream ∈ net.server.unixStreams[n]?,
        ∀ worker ∈ net.workers[n]?,
          (stream.link worker).ShortResponse bincode op)
    (taken : net.workerStep bincode n op = some after)
    : UnixStreams.Cover bincode after.server.unixStreams after.workers := by
  obtain ⟨stream, worker, link, found, behind, called, side, calm, rfl⟩ :=
    Net.workerStep_inv taken
  obtain ⟨first, there, covers⟩ := forall₂_getElem? cover behind
  obtain rfl := Option.some.inj (there.symm.trans found)
  exact forall₂_set_both cover n
    (covers.workerCalled side (short _ found _ behind) called calm)

end Casket
