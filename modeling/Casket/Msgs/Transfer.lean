import Casket.Msgs.Buffers

/-! What one call on either message buffer moves, in whole messages.
Each direction has a sender that appends frames and a receiver that splits them; the
leftover in a read buffer is always a proper part of one frame.
-/

namespace Casket

open Lib UnixSocket

/-- The frames of some requests, as the server writes them. -/
def requestFrames (bincode : Bincode) (requests : List Request) : Bytes :=
  bytePrefixed.stream (requests.map bincode.serializeRequest)

/-- A direction of the socket carries requests: what the worker has read and not decoded,
with what is still on its way, are exactly their frames.
-/
def CarriesRequests (bincode : Bincode) (leftover pending : Bytes)
    (requests : List Request)
    : Prop :=
  bytePrefixed.Carries leftover pending (requests.map bincode.serializeRequest)

/-- The other direction carries responses, each shorter than 2^32 bytes. -/
def CarriesResponses (bincode : Bincode) (leftover pending : Bytes)
    (responses : List Response)
    : Prop :=
  wordPrefixed.Carries leftover pending (responses.map bincode.serializeResponse)

/-- The bytes each end has read and not yet decoded. -/
def ServerMsgBuffer.leftover (self : ServerMsgBuffer) : Bytes :=
  self.readBuffer.take self.readBufLen

def WorkerMsgBuffer.leftover (self : WorkerMsgBuffer) : Bytes :=
  self.readBuffer.take self.readBufLen

-----------------------------------------------------------------------------------------
-- The server sends requests
-----------------------------------------------------------------------------------------

/-- Enqueueing moves a front part of `to_send` to the socket and its frames to the write
buffer. Witness: induction on the number of calls the socket accepts.
-/
theorem ServerMsgBuffer.enqueueRequests_spec (bincode : Bincode) (accepted : Nat)
    (self : ServerMsgBuffer)
    : ∃ sent rest,
        self.toSend = sent ++ rest
        ∧ self.enqueueRequests bincode accepted
          = ({ self with
                toSend := rest
                writeBuffer :=
                  self.writeBuffer ++ requestFrames bincode (sent.map Prod.fst) },
              sent.map Prod.snd) := by
  induction accepted generalizing self with
  | zero => exact ⟨[], self.toSend, rfl, by simp [enqueueRequests, requestFrames]⟩
  | succ accepted ih =>
      cases waiting : self.toSend with
      | nil =>
          obtain ⟨readBuffer, readBufLen, streamTks, streamCloseTks, toSend, writeBuffer⟩ := self
          subst waiting
          exact ⟨[], [], rfl, by simp [enqueueRequests, requestFrames]⟩
      | cons entry later =>
          obtain ⟨sent, rest, rfl, enqueued⟩ :=
            ih { self with
              toSend := later
              writeBuffer :=
                self.writeBuffer
                ++ bytePrefixed.frame (bincode.serializeRequest entry.1) }
          refine ⟨entry :: sent, rest, rfl, ?_⟩
          obtain ⟨msg, fd⟩ := entry
          simp only [bytePrefixed, FrameFormat.frame, List.singleton_append] at enqueued
          simp only [enqueueRequests, waiting, enqueued, requestFrames, List.map_cons,
            FrameFormat.stream_cons]
          simp [bytePrefixed, FrameFormat.frame]

/-- A server's write enqueues a front part of `to_send`; the bytes it hands over and those
it keeps are the old write buffer followed by the new frames, in that order.
-/
theorem ServerMsgBuffer.writeUnixStream_spec (bincode : Bincode) (self : ServerMsgBuffer)
    (accepted : Nat) (write : Except IoError Nat)
    : ∃ sent rest kept result,
        self.toSend = sent ++ rest
        ∧ self.writeUnixStream bincode accepted write
          = ({ self with toSend := rest, writeBuffer := kept }, sent.map Prod.snd, result)
        ∧ handed result ++ kept
          = self.writeBuffer ++ requestFrames bincode (sent.map Prod.fst) := by
  obtain ⟨sent, rest, split, enqueued⟩ := self.enqueueRequests_spec bincode accepted
  cases write with
  | error e =>
      refine ⟨sent, rest, _, .error e, split, ?_, rfl⟩
      simp only [writeUnixStream, enqueued]
      rfl
  | ok bytesWritten =>
      refine ⟨sent, rest, _, .ok _, split, ?_, List.take_append_drop bytesWritten _⟩
      simp only [writeUnixStream, enqueued, take_slide_written]

-----------------------------------------------------------------------------------------
-- The worker receives requests
-----------------------------------------------------------------------------------------

/-- Every whole request that has arrived is decoded, in order and only from its own frame;
the rest stays on its way. Witness: the frame rule for receiving, at one-byte sizes.
-/
theorem WorkerMsgBuffer.readUnixStream_spec {bincode : Bincode} {self : WorkerMsgBuffer}
    {data pending : Bytes} {requests : List Request} {dequeued : List RawFd}
    (carries : CarriesRequests bincode self.leftover (data ++ pending) requests)
    (fits : self.readBufLen + data.length ≤ self.readBuffer.length)
    : ∃ done left readBuffer readBufLen,
        requests = done ++ left
        ∧ self.readUnixStream bincode (.ok data) dequeued
          = .ok
              ({ self with
                  readBuffer
                  readBufLen
                  streamMsgs := self.streamMsgs ++ done
                  streamFds := self.streamFds ++ dequeued },
                .ok (done.map bincode.serializeRequest))
        ∧ readBuffer.length = self.readBuffer.length
        ∧ readBufLen ≤ readBuffer.length
        ∧ CarriesRequests bincode (readBuffer.take readBufLen) pending left := by
  obtain ⟨doneSlices, leftSlices, consumed, split, splits, within, rest⟩ := carries.refill fits
  obtain ⟨done, left, rfl, rfl, rfl⟩ := List.map_eq_append_iff.mp split
  refine ⟨done, left, _, _, rfl, ?_, ?_, ?_, rest⟩
  · simp only [readUnixStream, splits, bincode.mapM_deserializeRequest]
  · rw [length_slide, length_fill fits]
  · rw [length_slide, length_fill fits]
    exact Nat.le_trans (Nat.sub_le _ _) fits

-----------------------------------------------------------------------------------------
-- The worker sends responses
-----------------------------------------------------------------------------------------

/-- A worker's write hands over a front part of its buffer and keeps the rest. -/
theorem WorkerMsgBuffer.writeUnixStream_spec (self : WorkerMsgBuffer)
    (write : Except IoError Nat)
    : ∃ kept result,
        self.writeUnixStream write = ({ self with writeBuffer := kept }, result)
        ∧ handed result ++ kept = self.writeBuffer := by
  cases write with
  | error e => exact ⟨_, .error e, rfl, rfl⟩
  | ok bytesWritten =>
      refine ⟨_, .ok _, ?_, List.take_append_drop bytesWritten _⟩
      simp only [writeUnixStream, take_slide_written]

/-- Answering a token with a stored descriptor forgets it and appends one whole frame. -/
theorem WorkerMsgBuffer.respond_spec {bincode : Bincode} {self : WorkerMsgBuffer}
    {tk : Token} {keepAlive : Bool} {error : Option String} {fd : RawFd}
    (stored : self.serverFds.lookup tk = some fd)
    : self.respond bincode tk keepAlive error
      = .ok
          ({ self with
              serverFds := self.serverFds.erase tk
              writeBuffer :=
                self.writeBuffer
                ++ wordPrefixed.frame
                    (bincode.serializeResponse ⟨tk, fd, keepAlive, error⟩) },
            ⟨tk, fd, keepAlive, error⟩) := by
  simp only [respond, stored, List.append_assoc]
  rfl

-----------------------------------------------------------------------------------------
-- The server receives responses
-----------------------------------------------------------------------------------------

/-- Growing leaves what was read in place. -/
theorem ServerMsgBuffer.growReadBuffer_spec (self : ServerMsgBuffer)
    : ∃ readBuffer,
        self.growReadBuffer = { self with readBuffer }
        ∧ self.readBuffer <+: readBuffer := by
  unfold growReadBuffer
  split
  · exact ⟨_, rfl, List.prefix_append _ _⟩
  · exact ⟨_, rfl, List.prefix_refl _⟩

/-- A buffer of at least 2048 bytes offers at least 512 of them to each read. -/
theorem ServerMsgBuffer.readRoom_ge {self : ServerMsgBuffer}
    (large : 2048 ≤ self.readBuffer.length) (within : self.readBufLen ≤ self.readBuffer.length)
    : 512 ≤ self.readRoom := by
  unfold readRoom growReadBuffer
  split
  · simp only [List.length_append, List.length_replicate]
    omega
  · omega

/-- The tokens of kept responses join one queue and all other tokens the other queue,
each in the order of the messages. Witness: induction on the messages.
-/
theorem ServerMsgBuffer.foldl_pushResponse (self : ServerMsgBuffer) (msgs : List Response)
    : msgs.foldl pushResponse self
      = { self with
          streamTks :=
            self.streamTks
            ++ (msgs.filter (·.kept)).map (fun msg => (msg.token, msg.fd))
          streamCloseTks :=
            self.streamCloseTks
            ++ (msgs.filter (!·.kept)).map (fun msg => (msg.token, msg.fd)) } := by
  induction msgs generalizing self with
  | nil => simp
  | cons msg rest ih =>
      rw [List.foldl_cons, ih, pushResponse]
      cases kept : msg.kept <;> simp [kept]

/-- Every whole response that has arrived is decoded, in order and only from its own frame;
the rest stays on its way. Witness: the frame rule for receiving, at four-byte sizes.
-/
theorem ServerMsgBuffer.readUnixStream_spec {bincode : Bincode} {self : ServerMsgBuffer}
    {data pending : Bytes} {responses : List Response}
    (carries : CarriesResponses bincode self.leftover (data ++ pending) responses)
    (within : self.readBufLen ≤ self.readBuffer.length) (fits : data.length ≤ self.readRoom)
    : ∃ done left readBuffer readBufLen,
        responses = done ++ left
        ∧ self.readUnixStream bincode (.ok data)
          = .ok
              ({ self with
                  readBuffer
                  readBufLen
                  streamTks :=
                    self.streamTks
                    ++ (done.filter (·.kept)).map (fun msg => (msg.token, msg.fd))
                  streamCloseTks :=
                    self.streamCloseTks
                    ++ (done.filter (!·.kept)).map (fun msg => (msg.token, msg.fd)) },
                .ok done)
        ∧ self.readBuffer.length ≤ readBuffer.length
        ∧ readBufLen ≤ readBuffer.length
        ∧ CarriesResponses bincode (readBuffer.take readBufLen) pending left := by
  obtain ⟨grown, grows, ⟨more, rfl⟩⟩ := self.growReadBuffer_spec
  have room : self.readBufLen + data.length ≤ (self.readBuffer ++ more).length := by
    simp only [readRoom, grows, List.length_append] at fits ⊢
    omega
  have same : (self.readBuffer ++ more).take self.readBufLen = self.leftover :=
    List.take_append_of_le_length within
  rw [← same] at carries
  obtain ⟨doneSlices, leftSlices, consumed, split, splits, used, rest⟩ := carries.refill room
  obtain ⟨done, left, rfl, rfl, rfl⟩ := List.map_eq_append_iff.mp split
  have short
      : ∀ response ∈ done, (bincode.serializeResponse response).length < 2 ^ 32 := by
    intro response member
    refine (carries.fits (bincode.serializeResponse response) ?_).1
    rw [List.map_append]
    exact List.mem_append_left _ (List.mem_map_of_mem member)
  refine ⟨done, left, _, _, rfl, ?_, ?_, ?_, rest⟩
  · simp only [readUnixStream, grows, splits, bincode.mapM_deserializeResponse short,
      foldl_pushResponse]
  · rw [length_slide, length_fill room, List.length_append]
    exact Nat.le_add_right _ _
  · rw [length_slide, length_fill room]
    exact Nat.le_trans (Nat.sub_le _ _) room

end Casket
