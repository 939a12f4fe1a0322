import Casket.Msgs.Transfer

/-! What one server-worker connection is for, without bytes: two queues of whole messages.
The message buffers and the socket represent a mailbox, and every call on them moves whole
messages from one of its queues to the next.
-/

namespace Casket

open Lib UnixSocket

/-- A connection in messages. A request goes from `toSend` over the wire to the worker,
where it is paired with a descriptor; the worker then holds the token until it responds.
-/
structure Mailbox where
  toSend : List (Request × RawFd)
  requests : List Request
  fds : List RawFd
  streamMsgs : List Request
  streamFds : List RawFd
  serverFds : TokenMap RawFd
  responses : List Response
  streamTks : List (Token × RawFd)
  streamCloseTks : List (Token × RawFd)

namespace Mailbox

def empty : Mailbox := ⟨[], [], [], [], [], ∅, [], [], []⟩

/-- The two message buffers and the socket between them represent a mailbox. -/
structure Represents (bincode : Bincode) (server : ServerMsgBuffer) (socket : UnixSocket)
    (worker : WorkerMsgBuffer) (box : Mailbox)
    : Prop where
  requests
    : CarriesRequests bincode worker.leftover (socket.toWorker ++ server.writeBuffer)
        box.requests
  responses
    : CarriesResponses bincode server.leftover (socket.toServer ++ worker.writeBuffer)
        box.responses
  workerLength : worker.readBuffer.length = 2048
  workerWithin : worker.readBufLen ≤ worker.readBuffer.length
  serverLength : 2048 ≤ server.readBuffer.length
  serverWithin : server.readBufLen ≤ server.readBuffer.length
  toSend : server.toSend = box.toSend
  fds : socket.fds = box.fds
  streamMsgs : worker.streamMsgs = box.streamMsgs
  streamFds : worker.streamFds = box.streamFds
  serverFds : worker.serverFds = box.serverFds
  streamTks : server.streamTks = box.streamTks
  streamCloseTks : server.streamCloseTks = box.streamCloseTks

/-- Fresh buffers around a fresh socket represent the empty mailbox. -/
theorem Represents.new (bincode : Bincode)
    : Represents bincode .new .pair .new .empty where
  requests := FrameFormat.Carries.idle
  responses := FrameFormat.Carries.idle
  workerLength := List.length_replicate ..
  workerWithin := Nat.zero_le _
  serverLength := Nat.le_of_eq (List.length_replicate ..).symm
  serverWithin := Nat.zero_le _
  toSend := rfl
  fds := rfl
  streamMsgs := rfl
  streamFds := rfl
  serverFds := rfl
  streamTks := rfl
  streamCloseTks := rfl

variable {bincode : Bincode} {server : ServerMsgBuffer} {socket : UnixSocket}
  {worker : WorkerMsgBuffer} {box : Mailbox}

-----------------------------------------------------------------------------------------
-- The room each read is given
-----------------------------------------------------------------------------------------

/-- The worker's leftover is shorter than one 13-byte frame, so its buffer has room. -/
theorem Represents.workerRoom (rep : Represents bincode server socket worker box)
    : 0 < worker.readRoom := by
  have short : worker.leftover.length < 13 := by
    apply rep.requests.leftover_lt _ (by decide)
    intro payload member
    obtain ⟨request, -, rfl⟩ := List.mem_map.mp member
    rw [FrameFormat.length_frame, bincode.length_serializeRequest]
    decide
  rw [WorkerMsgBuffer.leftover, List.length_take, Nat.min_eq_left rep.workerWithin] at short
  rw [WorkerMsgBuffer.readRoom, rep.workerLength]
  omega

/-- The server grows its buffer before a read, so at least 512 bytes are free. -/
theorem Represents.serverRoom (rep : Represents bincode server socket worker box)
    : 512 ≤ server.readRoom :=
  ServerMsgBuffer.readRoom_ge rep.serverLength rep.serverWithin

-----------------------------------------------------------------------------------------
-- Server to worker
-----------------------------------------------------------------------------------------

/-- Requesting appends to `toSend`. -/
theorem Represents.reqTcpStreamFd (rep : Represents bincode server socket worker box)
    (tk : Token) (fd : RawFd)
    : Represents bincode (server.reqTcpStreamFd tk fd) socket worker
        { box with toSend := box.toSend ++ [(⟨tk, fd⟩, fd)] } :=
  { rep with
    toSend := by simp [ServerMsgBuffer.reqTcpStreamFd, rep.toSend] }

/-- A server's write moves a front part of `toSend` to the wire, requests and descriptors
alike, whatever part of the bytes the socket accepts.
-/
theorem Represents.serverWrote (rep : Represents bincode server socket worker box)
    (accepted : Nat) (write : Except IoError Nat)
    : ∃ sent rest next fds result,
        box.toSend = sent ++ rest
        ∧ server.writeUnixStream bincode accepted write = (next, fds, result)
        ∧ Represents bincode next (socket.serverWrote fds result) worker
            { box with
              toSend := rest
              requests := box.requests ++ sent.map Prod.fst
              fds := box.fds ++ sent.map Prod.snd } := by
  obtain ⟨sent, rest, kept, result, split, wrote, bytes⟩ :=
    server.writeUnixStream_spec bincode accepted write
  refine ⟨sent, rest, _, _, result, rep.toSend ▸ split, wrote, ?_⟩
  have pending
      : (socket.serverWrote (sent.map Prod.snd) result).toWorker ++ kept
        = socket.toWorker ++ server.writeBuffer
          ++ requestFrames bincode (sent.map Prod.fst) := by
    simp only [UnixSocket.serverWrote, List.append_assoc, bytes]
  have fits
      : ∀ payload ∈ (sent.map Prod.fst).map bincode.serializeRequest,
          bytePrefixed.Fits payload := by
    intro payload member
    obtain ⟨request, -, rfl⟩ := List.mem_map.mp member
    exact bincode.request_fits request
  exact { rep with
    requests := by
      rw [CarriesRequests, pending, List.map_append]
      exact rep.requests.sendAll fits
    toSend := rfl
    fds := by simp [UnixSocket.serverWrote, rep.fds] }

/-- A worker's read moves the first whole requests off the wire and some descriptors out
of the socket. It decodes without panic, each request from its own frame.
-/
theorem Represents.workerRead (rep : Represents bincode server socket worker box)
    {ready : Nat} {read : Except IoError Nat} {result : Except IoError Bytes}
    {dequeued : List RawFd} {after : UnixSocket}
    (reads : socket.workerReads worker.readRoom ready read = some (result, dequeued, after))
    : ∃ done left later next slices,
        box.requests = done ++ left
        ∧ box.fds = dequeued ++ later
        ∧ worker.readUnixStream bincode result dequeued = .ok (next, slices)
        ∧ slices.toOption.getD [] = done.map bincode.serializeRequest
        ∧ Represents bincode server after next
            { box with
              requests := left
              fds := later
              streamMsgs := box.streamMsgs ++ done
              streamFds := box.streamFds ++ dequeued } := by
  cases read with
  | error e =>
      obtain ⟨rfl, rfl, rfl⟩ : result = .error e ∧ dequeued = [] ∧ after = socket := by
        simpa [workerReads, eq_comm] using reads
      exact ⟨[], box.requests, box.fds, worker, .error e, rfl, rfl, rfl, rfl,
        by simpa using rep⟩
  | ok n =>
      simp only [workerReads] at reads
      split at reads
      · next within =>
          obtain ⟨rfl, rfl, rfl⟩ : result = .ok (socket.toWorker.take n)
              ∧ dequeued = socket.fds.take ready
              ∧ after
                = { socket with
                    toWorker := socket.toWorker.drop n
                    fds := socket.fds.drop ready } := by
            simpa [eq_comm] using reads
          have fits
              : worker.readBufLen + (socket.toWorker.take n).length
                ≤ worker.readBuffer.length := by
            have room := within.1
            rw [WorkerMsgBuffer.readRoom] at room
            have := rep.workerWithin
            simp only [List.length_take]
            omega
          have carries := rep.requests
          rw [← List.take_append_drop n socket.toWorker, List.append_assoc] at carries
          obtain ⟨done, left, readBuffer, readBufLen, split, decoded, sameLength, inside, rest⟩ :=
            WorkerMsgBuffer.readUnixStream_spec carries fits
          refine ⟨done, left, socket.fds.drop ready, _, _, split, ?_, decoded, rfl, ?_⟩
          · rw [← rep.fds, List.take_append_drop]
          · exact { rep with
              requests := rest
              workerLength := sameLength.trans rep.workerLength
              workerWithin := inside
              fds := rfl
              streamMsgs := by rw [rep.streamMsgs]
              streamFds := by rw [rep.streamFds] }
      · cases reads

/-- Pairing takes the first descriptor and the first message, or does nothing. -/
theorem Represents.nextStreamFd (rep : Represents bincode server socket worker box)
    {tk : Token} {fd : RawFd} {next : WorkerMsgBuffer}
    (paired : worker.nextStreamFd = some ((tk, fd), next))
    : ∃ msg msgs fds,
        box.streamMsgs = msg :: msgs
        ∧ box.streamFds = fd :: fds
        ∧ msg.token = tk
        ∧ Represents bincode server socket next
            { box with
              streamMsgs := msgs
              streamFds := fds
              serverFds := box.serverFds.insert tk msg.fd } := by
  obtain ⟨readBuffer, readBufLen, writeBuffer, serverFds, streamFds, streamMsgs⟩ := worker
  cases streamFds with
  | nil => cases paired
  | cons first fds =>
      cases streamMsgs with
      | nil => cases paired
      | cons msg msgs =>
          obtain ⟨⟨rfl, rfl⟩, rfl⟩ : (msg.token = tk ∧ first = fd) ∧ _ = next := by
            simpa [WorkerMsgBuffer.nextStreamFd] using paired
          refine ⟨msg, msgs, fds, rep.streamMsgs.symm, rep.streamFds.symm, rfl, ?_⟩
          exact { rep with
            streamMsgs := rfl
            streamFds := rfl
            serverFds := by rw [← rep.serverFds] }

-----------------------------------------------------------------------------------------
-- Worker to server
-----------------------------------------------------------------------------------------

/-- Responding to a held token puts one response on the wire and releases the token. -/
theorem Represents.responded (rep : Represents bincode server socket worker box)
    {tk : Token} {keepAlive : Bool} {error : Option String} {next : WorkerMsgBuffer}
    {response : Response}
    (done : worker.respond bincode tk keepAlive error = .ok (next, response))
    (short : (bincode.serializeResponse response).length < 2 ^ 32)
    : tk ∈ box.serverFds
      ∧ response.token = tk
      ∧ Represents bincode server socket next
          { box with
            serverFds := box.serverFds.erase tk
            responses := box.responses ++ [response] } := by
  cases stored : worker.serverFds.lookup tk with
  | none => simp [WorkerMsgBuffer.respond, stored] at done
  | some fd =>
      rw [WorkerMsgBuffer.respond_spec stored] at done
      obtain ⟨rfl, rfl⟩ := Prod.mk.inj (Except.ok.inj done)
      have held : tk ∈ box.serverFds := by
        rw [← rep.serverFds, ← AList.lookup_isSome, stored]
        rfl
      refine ⟨held, rfl, { rep with responses := ?_, serverFds := by rw [rep.serverFds] }⟩
      have carries := rep.responses.send (bincode.response_fits short)
      rw [CarriesResponses, List.map_append, List.map_singleton]
      simpa only [List.append_assoc] using carries

/-- A worker's write hands over any front part of its bytes; no message moves. -/
theorem Represents.workerWrote (rep : Represents bincode server socket worker box)
    (write : Except IoError Nat)
    : ∃ next result,
        worker.writeUnixStream write = (next, result)
        ∧ Represents bincode server (socket.workerWrote result) next box := by
  obtain ⟨kept, result, wrote, bytes⟩ := worker.writeUnixStream_spec write
  refine ⟨_, result, wrote, { rep with responses := ?_ }⟩
  have pending
      : (socket.workerWrote result).toServer ++ kept
        = socket.toServer ++ worker.writeBuffer := by
    simp only [UnixSocket.workerWrote, List.append_assoc, bytes]
  rw [CarriesResponses, pending]
  exact rep.responses

/-- A server's read moves the first whole responses off the wire into its two queues. It
decodes without panic, each response from its own frame.
-/
theorem Represents.serverRead (rep : Represents bincode server socket worker box)
    {read : Except IoError Nat} {result : Except IoError Bytes} {after : UnixSocket}
    (reads : socket.serverReads server.readRoom read = some (result, after))
    : ∃ done left next decoded,
        box.responses = done ++ left
        ∧ server.readUnixStream bincode result = .ok (next, decoded)
        ∧ decoded.toOption.getD [] = done
        ∧ Represents bincode next after worker
            { box with
              responses := left
              streamTks :=
                box.streamTks
                ++ (done.filter (·.kept)).map (fun msg => (msg.token, msg.fd))
              streamCloseTks :=
                box.streamCloseTks
                ++ (done.filter (!·.kept)).map (fun msg => (msg.token, msg.fd)) } := by
  cases read with
  | error e =>
      obtain ⟨rfl, rfl⟩ : result = .error e ∧ after = socket := by
        simpa [serverReads, eq_comm] using reads
      obtain ⟨grown, grows, ⟨more, rfl⟩⟩ := server.growReadBuffer_spec
      have decoded
          : server.readUnixStream bincode (.error e)
            = .ok ({ server with readBuffer := server.readBuffer ++ more }, .error e) := by
        simp only [ServerMsgBuffer.readUnixStream, grows]
      refine ⟨[], box.responses, _, _, rfl, decoded, rfl, ?_⟩
      have longer : server.readBuffer.length ≤ (server.readBuffer ++ more).length := by
        rw [List.length_append]
        exact Nat.le_add_right _ _
      have same : (server.readBuffer ++ more).take server.readBufLen = server.leftover :=
        List.take_append_of_le_length rep.serverWithin
      exact { rep with
        responses := by
          rw [CarriesResponses, ServerMsgBuffer.leftover, same]
          exact rep.responses
        serverLength := Nat.le_trans rep.serverLength longer
        serverWithin := Nat.le_trans rep.serverWithin longer
        streamTks := by simp [rep.streamTks]
        streamCloseTks := by simp [rep.streamCloseTks] }
  | ok n =>
      simp only [serverReads] at reads
      split at reads
      · next within =>
          obtain ⟨rfl, rfl⟩ : result = .ok (socket.toServer.take n)
              ∧ after = { socket with toServer := socket.toServer.drop n } := by
            simpa [eq_comm] using reads
          have fits : (socket.toServer.take n).length ≤ server.readRoom := by
            rw [List.length_take]
            omega
          have carries := rep.responses
          rw [← List.take_append_drop n socket.toServer, List.append_assoc] at carries
          obtain ⟨done, left, readBuffer, readBufLen, split, decoded, longer, inside, rest⟩ :=
            ServerMsgBuffer.readUnixStream_spec carries rep.serverWithin fits
          refine ⟨done, left, _, _, split, decoded, rfl, ?_⟩
          exact { rep with
            responses := rest
            serverLength := Nat.le_trans rep.serverLength longer
            serverWithin := inside
            streamTks := by rw [rep.streamTks]
            streamCloseTks := by rw [rep.streamCloseTks] }
      · cases reads

/-- Taking a kept token takes the first one, or does nothing. -/
theorem Represents.nextStreamTk (rep : Represents bincode server socket worker box)
    {tk : Token} {next : ServerMsgBuffer} (taken : server.nextStreamTk = some (tk, next))
    : ∃ fd rest,
        box.streamTks = (tk, fd) :: rest
        ∧ Represents bincode next socket worker { box with streamTks := rest } := by
  cases queue : server.streamTks with
  | nil => simp [ServerMsgBuffer.nextStreamTk, queue] at taken
  | cons entry rest =>
      obtain ⟨rfl, rfl⟩ : entry.1 = tk ∧ { server with streamTks := rest } = next := by
        simpa [ServerMsgBuffer.nextStreamTk, queue] using taken
      exact ⟨entry.2, rest, rep.streamTks ▸ queue, { rep with streamTks := rfl }⟩

/-- Taking a token to be closed takes the first one, or does nothing. -/
theorem Represents.nextStreamCloseTk (rep : Represents bincode server socket worker box)
    {tk : Token} {next : ServerMsgBuffer}
    (taken : server.nextStreamCloseTk = some (tk, next))
    : ∃ fd rest,
        box.streamCloseTks = (tk, fd) :: rest
        ∧ Represents bincode next socket worker { box with streamCloseTks := rest } := by
  cases queue : server.streamCloseTks with
  | nil => simp [ServerMsgBuffer.nextStreamCloseTk, queue] at taken
  | cons entry rest =>
      obtain ⟨rfl, rfl⟩ : entry.1 = tk ∧ { server with streamCloseTks := rest } = next := by
        simpa [ServerMsgBuffer.nextStreamCloseTk, queue] using taken
      exact ⟨entry.2, rest, rep.streamCloseTks ▸ queue, { rep with streamCloseTks := rfl }⟩

-----------------------------------------------------------------------------------------
-- Nothing lingers: an empty wire carries no message
-----------------------------------------------------------------------------------------

theorem Represents.requests_nil (rep : Represents bincode server socket worker box)
    (quiet : socket.toWorker = []) (flushed : server.writeBuffer = [])
    : box.requests = [] := by
  have carries := rep.requests
  rw [quiet, flushed] at carries
  exact List.map_eq_nil_iff.mp carries.drained.1

theorem Represents.responses_nil (rep : Represents bincode server socket worker box)
    (quiet : socket.toServer = []) (flushed : worker.writeBuffer = [])
    : box.responses = [] := by
  have carries := rep.responses
  rw [quiet, flushed] at carries
  exact List.map_eq_nil_iff.mp carries.drained.1

end Mailbox
end Casket
