import Casket.Msgs.Ends
import Casket.Server.Steps

/-! What the server tells its workers: each step of its loop is a run of calls at its end of
every link, and asks a worker for at most one stream, which has waited and is in process from
then on.
-/

namespace Casket

open Lib

-----------------------------------------------------------------------------------------
-- One socket
-----------------------------------------------------------------------------------------

/-- The socket stands at the server's end of a link. -/
structure UnixStream.AtLink (socket : UnixStream) (link : Link) : Prop where
  server : link.server = socket.msgBuffer
  stream : link.socket = socket.stream

/-- A run of calls at the server's end, which asks for some streams. -/
def UnixStream.Tells (bincode : Bincode) (before after : UnixStream)
    (asked : List (Token × RawFd))
    : Prop :=
  ∀ link : Link,
    before.AtLink link → link.panicked = none →
    ∃ next : Link,
      link.Calls bincode false next
      ∧ after.AtLink next
      ∧ next.panicked = none
      ∧ next.requested = link.requested ++ asked

namespace UnixStream

variable {bincode : Bincode} {self after : UnixStream}

/-- A change that concerns neither the buffer nor the socket. -/
theorem tells_nothing (buffer : after.msgBuffer = self.msgBuffer)
    (stream : after.stream = self.stream)
    : self.Tells bincode after [] := by
  intro link stands calm
  refine ⟨link, .start, ⟨?_, ?_⟩, calm, (List.append_nil _).symm⟩
  · exact stands.server.trans buffer.symm
  · exact stands.stream.trans stream.symm

theorem Tells.refl (bincode : Bincode) (self : UnixStream) : self.Tells bincode self [] :=
  tells_nothing rfl rfl

/-- What is told first and then. -/
theorem Tells.trans {before middle after : UnixStream} {first second : List (Token × RawFd)}
    (left : before.Tells bincode middle first) (right : middle.Tells bincode after second)
    : before.Tells bincode after (first ++ second) := by
  intro link stands calm
  obtain ⟨between, calls, at_, still, asked⟩ := left link stands calm
  obtain ⟨next, more, last, quiet, then_⟩ := right between at_ still
  refine ⟨next, calls.trans more, last, quiet, ?_⟩
  rw [then_, asked, List.append_assoc]

/-- One call of the server's end. -/
theorem tells_call (op : LinkOp) (side : op.byWorker = false)
    (called
      : ∀ link : Link,
          self.AtLink link → link.panicked = none →
          ∃ next : Link,
            link.step bincode op = some next
            ∧ after.AtLink next
            ∧ next.panicked = none)
    : self.Tells bincode after op.asked := by
  intro link stands calm
  obtain ⟨next, taken, at_, still⟩ := called link stands calm
  exact ⟨next, .one side (Link.short_byServer side) taken, at_, still,
    (Link.step_byServer taken side).2.2⟩

/-- Reregistering tells nothing. -/
theorem tells_reregister (self : UnixStream) (bincode : Bincode) (succeeds : Bool)
    (registry : TokenMap Interest)
    : self.Tells bincode (self.reregister succeeds registry).1 [] := by
  unfold UnixStream.reregister
  split
  · exact tells_nothing rfl rfl
  · split
    · exact tells_nothing rfl rfl
    · exact .refl bincode self

/-- A pop of one of the two token queues is a call that asks for nothing. -/
def PopsBy (bincode : Bincode) (pop : ServerMsgBuffer → Option (Token × ServerMsgBuffer))
    (op : LinkOp)
    : Prop :=
  op.byWorker = false
  ∧ op.asked = []
  ∧ ∀ {link : Link} {tk : Token} {next : ServerMsgBuffer},
      link.panicked = none → pop link.server = some (tk, next) →
      ∃ after : Link,
        link.step bincode op = some after
        ∧ after.server = next
        ∧ after.socket = link.socket
        ∧ after.panicked = none

theorem popsBy_nextStreamTk (bincode : Bincode)
    : PopsBy bincode ServerMsgBuffer.nextStreamTk .nextStreamTk := by
  refine ⟨rfl, rfl, ?_⟩
  intro link tk next calm popped
  refine ⟨{ link with server := next, keptTks := link.keptTks ++ [tk] }, ?_, rfl, rfl, calm⟩
  rw [Link.step_transfer calm rfl, Link.transfer, popped]

theorem popsBy_nextStreamCloseTk (bincode : Bincode)
    : PopsBy bincode ServerMsgBuffer.nextStreamCloseTk .nextStreamCloseTk := by
  refine ⟨rfl, rfl, ?_⟩
  intro link tk next calm popped
  refine
    ⟨{ link with server := next, closedTks := link.closedTks ++ [tk] }, ?_, rfl, rfl, calm⟩
  rw [Link.step_transfer calm rfl, Link.transfer, popped]

/-- Taking a token out of a queue. -/
theorem PopsBy.tells {pop : ServerMsgBuffer → Option (Token × ServerMsgBuffer)} {op : LinkOp}
    (pops : PopsBy bincode pop op) {tk : Token}
    (taken : self.nextToken pop = .ok (some (tk, after)))
    : self.Tells bincode after [] := by
  obtain ⟨side, asks, popped⟩ := pops
  unfold UnixStream.nextToken at taken
  split at taken
  · cases taken
  · next next found =>
      split at taken
      · cases taken
      · obtain ⟨-, rfl⟩ := Prod.mk.inj (Option.some.inj (Except.ok.inj taken))
        rw [← asks]
        refine tells_call op side ?_
        intro link stands calm
        rw [← stands.server] at found
        obtain ⟨after, called, server, socket, still⟩ := popped calm found
        exact ⟨after, called, ⟨server, socket.trans stands.stream⟩, still⟩

/-- Draining a queue, by induction on the fuel. -/
theorem PopsBy.drain {pop : ServerMsgBuffer → Option (Token × ServerMsgBuffer)}
    {op : LinkOp} (pops : PopsBy bincode pop op) {fuel : Nat} {tks : List Token}
    (drained : self.drain (nextToken pop) fuel = .ok (tks, after))
    : self.Tells bincode after [] := by
  induction fuel generalizing self tks with
  | zero =>
      obtain ⟨-, rfl⟩ := Prod.mk.inj (Except.ok.inj drained)
      exact .refl bincode self
  | succ fuel ih =>
      simp only [UnixStream.drain] at drained
      split at drained
      · cases drained
      · obtain ⟨-, rfl⟩ := Prod.mk.inj (Except.ok.inj drained)
        exact .refl bincode self
      · next taken =>
          split at drained
          · cases drained
          · next more =>
              obtain ⟨-, rfl⟩ := Prod.mk.inj (Except.ok.inj drained)
              exact (pops.tells taken).trans (ih more)

/-- A read that does not panic is the server's read. -/
theorem tells_readStream {read : Except IoError Nat}
    (reads : self.readStream bincode read = some (.ok after))
    : self.Tells bincode after [] := by
  refine tells_call (.serverRead read) rfl ?_
  intro link stands calm
  obtain ⟨⟨result, socket⟩, gave, decoded⟩ := Option.map_eq_some_iff.mp reads
  dsimp only at decoded
  cases read_ : self.msgBuffer.readUnixStream bincode result with
  | error panic =>
      rw [read_] at decoded
      cases decoded
  | ok next =>
      rw [read_] at decoded
      obtain rfl := Except.ok.inj decoded
      rw [← stands.server, ← stands.stream] at gave
      rw [← stands.server] at read_
      refine
        ⟨{ link with
            server := next.1
            socket
            decoded := link.decoded ++ next.2.toOption.getD [] }, ?_, ⟨rfl, rfl⟩, calm⟩
      rw [Link.step_transfer calm rfl, Link.transfer, gave, Option.map_some]
      dsimp only
      rw [read_]

/-- A write is the server's write. -/
theorem tells_writeStream (self : UnixStream) (bincode : Bincode) (accepted : Nat)
    (write : Except IoError Nat)
    : self.Tells bincode (self.writeStream bincode accepted write) [] := by
  refine tells_call (.serverWrite accepted write) rfl ?_
  intro link stands calm
  refine ⟨_, Link.step_transfer calm rfl, ⟨?_, ?_⟩, calm⟩
  · rw [stands.server]
    rfl
  · rw [stands.server, stands.stream]
    rfl

/-- Dispatching asks for the stream. -/
theorem tells_msgSendTcpStream (self : UnixStream) (bincode : Bincode) (tk : Token)
    (fd : RawFd)
    : self.Tells bincode (self.msgSendTcpStream tk fd) [(tk, fd)] := by
  refine tells_call (.reqTcpStreamFd tk fd) rfl ?_
  intro link stands calm
  refine ⟨_, Link.step_transfer calm rfl, ⟨?_, stands.stream⟩, calm⟩
  · simp only [stands.server, UnixStream.msgSendTcpStream]

end UnixStream

-----------------------------------------------------------------------------------------
-- All sockets
-----------------------------------------------------------------------------------------

namespace UnixStreams

variable {bincode : Bincode}

/-- Calls on the sockets that ask for nothing. -/
abbrev Tell (bincode : Bincode) (before after : List UnixStream) : Prop :=
  List.Forall₂ (fun stream next => UnixStream.Tells bincode stream next []) before after

theorem Tell.refl (bincode : Bincode) (streams : List UnixStream)
    : Tell bincode streams streams :=
  List.forall₂_same.mpr fun stream _ => .refl bincode stream

/-- Reregistering every socket, by induction on the sockets. -/
theorem tell_reregister (bincode : Bincode) (succeeds : Token → Bool)
    (streams : List UnixStream) (registry : TokenMap Interest)
    : Tell bincode streams (reregister succeeds streams registry).1 := by
  induction streams generalizing registry with
  | nil => exact .nil
  | cons stream rest ih => exact .cons (stream.tells_reregister _ _ _) (ih _)

/-- Draining every socket, by induction on the sockets. -/
theorem tell_drainAll {pop : ServerMsgBuffer → Option (Token × ServerMsgBuffer)}
    {op : LinkOp} (pops : UnixStream.PopsBy bincode pop op) {waiting : UnixStream → Nat}
    {streams after : List UnixStream} {tks : List Token}
    (drained : drainAll (UnixStream.nextToken pop) waiting streams = .ok (tks, after))
    : Tell bincode streams after := by
  induction streams generalizing tks after with
  | nil =>
      obtain ⟨-, rfl⟩ := Prod.mk.inj (Except.ok.inj drained)
      exact .nil
  | cons stream rest ih =>
      simp only [drainAll] at drained
      split at drained
      · cases drained
      · next first =>
          split at drained
          · cases drained
          · next others =>
              obtain ⟨-, rfl⟩ := Prod.mk.inj (Except.ok.inj drained)
              exact .cons (pops.drain first) (ih others)

end UnixStreams

-----------------------------------------------------------------------------------------
-- One step of the server
-----------------------------------------------------------------------------------------

namespace Server

/-- What a step tells the workers, and what becomes of the two maps. A stream that a worker
is asked for has waited for its request; otherwise streams are only taken out of process, and
what starts to wait was just assigned its token.
-/
inductive Sends (bincode : Bincode) (server after : Server) : List (Token × RawFd) → Prop
  | nothing {more : List Token}
    (tells : UnixStreams.Tell bincode server.unixStreams after.unixStreams)
    (assigned : after.assigned = server.assigned ++ more)
    (reading : after.readingStreams.keys.Subperm (server.readingStreams.keys ++ more))
    (processing
      : ∀ {tk tcpStream},
          after.processingStreams.lookup tk = some tcpStream →
          server.processingStreams.lookup tk = some tcpStream)
    : Sends bincode server after []
  | request {n : Nat} {stream : UnixStream} {tk : Token} {tcpStream : TcpStream}
    (waits : server.readingStreams.lookup tk = some tcpStream)
    (found : server.unixStreams[n]? = some stream)
    (unixStreams
      : after.unixStreams
        = server.unixStreams.set n (stream.msgSendTcpStream tk tcpStream.fd))
    (assigned : after.assigned = server.assigned)
    (reading : after.readingStreams = server.readingStreams.erase tk)
    (processing : after.processingStreams = server.processingStreams.insert tk tcpStream)
    : Sends bincode server after [(tk, tcpStream.fd)]

variable {cfg : Config} {bincode : Bincode} {server after : Server} {input : ServerInput}

/-- Steps that leave the maps and the tokens alone. -/
theorem Sends.quiet (tells : UnixStreams.Tell bincode server.unixStreams after.unixStreams)
    (assigned : after.assigned = server.assigned)
    (reading : after.readingStreams = server.readingStreams)
    (processing : after.processingStreams = server.processingStreams)
    : server.Sends bincode after [] := by
  have assigned : after.assigned = server.assigned ++ [] :=
    assigned.trans (List.append_nil _).symm
  refine .nothing tells assigned ?_ ?_
  · rw [reading, List.append_nil]
  · intro tk tcpStream found
    rwa [processing] at found

theorem subperm_erase {α : Type} (map : TokenMap α) (tk : Token)
    : (map.erase tk).keys.Subperm map.keys := by
  rw [AList.keys_erase]
  exact List.erase_sublist.subperm

theorem subperm_insert {α : Type} (map : TokenMap α) (tk : Token) (value : α)
    : (map.insert tk value).keys.Subperm (map.keys ++ [tk]) := by
  rw [AList.keys_insert]
  have front : (tk :: map.keys.erase tk).Subperm (tk :: map.keys) :=
    (List.subperm_cons tk).mpr List.erase_sublist.subperm
  exact front.trans (List.perm_append_singleton tk map.keys).symm.subperm

/-- An event of a worker socket is a read and a write. -/
theorem unixStreamEvent_sends {n : Nat} {stream : UnixStream} {ev : MioEvent} {io : EventIo}
    (found : server.unixStreams[n]? = some stream)
    (taken : server.unixStreamEvent bincode n stream ev io = some after)
    : server.Sends bincode after [] := by
  obtain ⟨result, read, rfl⟩ := Option.map_eq_some_iff.mp taken
  cases result with
  | error panic => exact .quiet (.refl bincode _) rfl rfl rfl
  | ok between =>
      have first : stream.Tells bincode between [] := by
        split at read
        · exact UnixStream.tells_readStream read
        · obtain rfl := Except.ok.inj (Option.some.inj read)
          exact .refl bincode stream
      refine .quiet (forall₂_set (fun x => .refl bincode x) found ?_) rfl rfl rfl
      split
      · exact first.trans (between.tells_writeStream bincode io.accepted io.write)
      · exact first

/-- Every step of the server. Witness: one case for each branch of the loop. -/
theorem step_sends (taken : server.step cfg bincode input = some after)
    : ∃ asked, server.Sends bincode after asked := by
  cases step_takes taken with
  | @top elapsed closeNow registers stands =>
      refine ⟨[], ?_⟩
      rcases server.loopTop_cases cfg elapsed closeNow registers with
        starts | ⟨returns, -⟩ | ⟨time, -, -, -, returns⟩
      · rw [starts]
        unfold Server.startIteration
        simp only
        split
        · exact .quiet (.refl bincode _) rfl rfl rfl
        · next drained =>
            refine .quiet ?_ rfl rfl rfl
            exact forall₂_trans (fun left right => left.trans right)
              (UnixStreams.tell_reregister bincode ..)
              (UnixStreams.tell_drainAll (UnixStream.popsBy_nextStreamTk bincode) drained)
      · rw [returns]
        exact .quiet (.refl bincode _) rfl rfl rfl
      · rw [returns]
        refine .nothing (.refl bincode _) (List.append_nil _).symm ?_ nofun
        exact (List.append_nil _).symm ▸ List.Subperm.refl _
  | @keepAlive tk tks registers stands =>
      refine ⟨[], ?_⟩
      unfold Server.keepAliveStream
      split
      · exact .quiet (.refl bincode _) rfl rfl rfl
      · next tcpStream inProcess =>
          have left {other : Token} {kept : TcpStream}
              (found : (server.processingStreams.erase tk).lookup other = some kept)
              : server.processingStreams.lookup other = some kept :=
            lookup_of_erase found
          have within := (List.sublist_append_left server.readingStreams.keys
            [tk + keepAliveCountInc]).subperm
          simp only
          split
          · exact .nothing (.refl bincode _) rfl within left
          · split
            · exact .nothing (.refl bincode _) rfl (subperm_insert ..) left
            · exact .nothing (.refl bincode _) rfl within left
  | keptAll =>
      refine ⟨[], ?_⟩
      unfold Server.takeCloseTks
      split
      · exact .quiet (.refl bincode _) rfl rfl rfl
      · next drained =>
          refine .quiet ?_ rfl rfl rfl
          exact UnixStreams.tell_drainAll (UnixStream.popsBy_nextStreamCloseTk bincode) drained
  | @close tk tks stands =>
      refine ⟨[], ?_⟩
      unfold Server.closeStream
      split
      · exact .quiet (.refl bincode _) rfl rfl rfl
      · refine .nothing (.refl bincode _) (List.append_nil _).symm ?_ ?_
        · exact (List.append_nil _).symm ▸ List.Subperm.refl _
        · exact fun found => lookup_of_erase found
  | closedAll => exact ⟨[], .quiet (.refl bincode _) rfl rfl rfl⟩
  | poll =>
      refine ⟨[], ?_⟩
      unfold Server.polled
      split
      · refine .nothing (.refl bincode _) (List.append_nil _).symm ?_ id
        exact List.nil_subperm
      · exact .quiet (.refl bincode _) rfl rfl rfl
  | @accept ev evs io stands listener =>
      refine ⟨[], ?_⟩
      unfold Server.acceptStream
      split
      · exact .quiet (.refl bincode _) rfl rfl rfl
      · have within := (List.sublist_append_left server.readingStreams.keys
          [server.nextClientToken]).subperm
        simp only
        split
        · exact .nothing (.refl bincode _) rfl within id
        · split
          · exact .nothing (.refl bincode _) rfl (subperm_insert ..) id
          · exact .nothing (.refl bincode _) rfl within id
  | @dispatch ev evs io tcpStream stands other waits =>
      have dropped
          : (server.readingStreams.erase ev.token).keys.Subperm
              (server.readingStreams.keys ++ []) := by
        rw [List.append_nil]
        exact subperm_erase ..
      unfold Server.dispatchStream
      simp only
      split
      · split
        · exact ⟨[], .nothing (.refl bincode _) (List.append_nil _).symm dropped id⟩
        · next sent =>
            obtain ⟨stream, found, rfl⟩ := UnixStreams.msgSendTcpStream_ok sent
            exact ⟨_, .request waits found rfl rfl rfl rfl⟩
      · exact ⟨[], .nothing (.refl bincode _) (List.append_nil _).symm dropped id⟩
  | @unixStream ev evs io n stream after stands other idle position found taken =>
      have found
          : { server with phase := .events evs }.unixStreams[n]? = some stream :=
        found
      have sends := unixStreamEvent_sends found taken
      refine ⟨[], ?_⟩
      cases sends with
      | nothing tells assigned reading processing =>
          exact .nothing tells assigned reading processing
  | unknown => exact ⟨[], .quiet (.refl bincode _) rfl rfl rfl⟩
  | handled => exact ⟨[], .quiet (.refl bincode _) rfl rfl rfl⟩

end Server
end Casket
