import Casket.Lib.Buffer
import Casket.Msgs.Wire

/-! The two ends of the unix socket between the server and a worker.
The socket itself decides how many bytes a call moves; a read is given the bytes it
returned, a write the number of bytes it accepted.
-/

namespace Casket

open Lib

-----------------------------------------------------------------------------------------
-- The server's end
-----------------------------------------------------------------------------------------

structure ServerMsgBuffer where
  readBuffer : Bytes
  readBufLen : Nat
  streamTks : List (Token × RawFd)
  streamCloseTks : List (Token × RawFd)
  toSend : List (Request × RawFd)
  writeBuffer : Bytes
  deriving DecidableEq, Repr

namespace ServerMsgBuffer

def new : ServerMsgBuffer where
  readBuffer := List.replicate 2048 0
  readBufLen := 0
  streamTks := []
  streamCloseTks := []
  toSend := []
  writeBuffer := []

/-- `if self.read_buffer.len() - self.read_buf_len < 512 { resize to twice the length }`. -/
def growReadBuffer (self : ServerMsgBuffer) : ServerMsgBuffer :=
  if self.readBuffer.length - self.readBufLen < 512 then
    { self with
      readBuffer := self.readBuffer ++ List.replicate self.readBuffer.length 0 }
  else
    self

/-- The length of the slice `&mut self.read_buffer[self.read_buf_len..]` given to `read`. -/
def readRoom (self : ServerMsgBuffer) : Nat :=
  self.growReadBuffer.readBuffer.length - self.readBufLen

/-- `self.stream_tks.push_back(..)` or `self.stream_close_tks.push_back(..)`. -/
def pushResponse (self : ServerMsgBuffer) (msg : Response) : ServerMsgBuffer :=
  if msg.kept then
    { self with streamTks := self.streamTks ++ [(msg.token, msg.fd)] }
  else
    { self with streamCloseTks := self.streamCloseTks ++ [(msg.token, msg.fd)] }

/-- One read, the decoding loop, and the shift of what is left to the front.
The decoded messages are returned as well, for the ledger of a run.
-/
def readUnixStream (bincode : Bincode) (self : ServerMsgBuffer)
    (read : Except IoError Bytes)
    : Except Panic (ServerMsgBuffer × Except IoError (List Response)) :=
  let self := self.growReadBuffer
  match read with
  | .error e => .ok (self, .error e)
  | .ok data =>
      let readBuffer := fill self.readBuffer self.readBufLen data
      let readBufLen := self.readBufLen + data.length
      let (slices, bytesRead) := wordPrefixed.split (readBuffer.take readBufLen)
      match slices.mapM bincode.deserializeResponse with
      | none => .error .deserializeResponse
      | some msgs =>
          let bytesRemaining := readBufLen - bytesRead
          .ok
            (msgs.foldl pushResponse
              { self with
                readBuffer := slide readBuffer bytesRead bytesRemaining
                readBufLen := bytesRemaining },
              .ok msgs)

def nextStreamTk (self : ServerMsgBuffer) : Option (Token × ServerMsgBuffer) :=
  match self.streamTks with
  | [] => none
  | (tk, _) :: rest => some (tk, { self with streamTks := rest })

def nextStreamCloseTk (self : ServerMsgBuffer) : Option (Token × ServerMsgBuffer) :=
  match self.streamCloseTks with
  | [] => none
  | (tk, _) :: rest => some (tk, { self with streamCloseTks := rest })

/-- The enqueueing loop: a request leaves `to_send` when the socket takes its descriptor;
the first refusal puts it back and ends the loop. `accepted` calls succeed.
-/
def enqueueRequests (bincode : Bincode) : Nat → ServerMsgBuffer → ServerMsgBuffer × List RawFd
  | 0, self => (self, [])
  | accepted + 1, self =>
      match self.toSend with
      | [] => (self, [])
      | (msg, fd) :: rest =>
          let payload := bincode.serializeRequest msg
          let next :=
            enqueueRequests bincode accepted
              { self with
                toSend := rest
                writeBuffer :=
                  self.writeBuffer ++ UInt8.ofNat payload.length :: payload }
          (next.1, fd :: next.2)

/-- Returns the descriptors enqueued on the socket and the bytes it accepted. -/
def writeUnixStream (bincode : Bincode) (self : ServerMsgBuffer) (accepted : Nat)
    (write : Except IoError Nat)
    : ServerMsgBuffer × List RawFd × Except IoError Bytes :=
  let (self, fds) := self.enqueueRequests bincode accepted
  match write with
  | .error e => (self, fds, .error e)
  | .ok bytesWritten =>
      let bytesRemaining := self.writeBuffer.length - bytesWritten
      ({ self with
          writeBuffer :=
            (slide self.writeBuffer bytesWritten bytesRemaining).take bytesRemaining },
        fds, .ok (self.writeBuffer.take bytesWritten))

def hasDataToSend (self : ServerMsgBuffer) : Bool :=
  !self.toSend.isEmpty || !self.writeBuffer.isEmpty

def reqTcpStreamFd (self : ServerMsgBuffer) (tk : Token) (fd : RawFd) : ServerMsgBuffer :=
  { self with toSend := self.toSend ++ [(⟨tk, fd⟩, fd)] }

end ServerMsgBuffer

-----------------------------------------------------------------------------------------
-- The worker's end
-----------------------------------------------------------------------------------------

structure WorkerMsgBuffer where
  readBuffer : Bytes
  readBufLen : Nat
  writeBuffer : Bytes
  serverFds : TokenMap RawFd
  streamFds : List RawFd
  streamMsgs : List Request

namespace WorkerMsgBuffer

def new : WorkerMsgBuffer where
  readBuffer := List.replicate 2048 0
  readBufLen := 0
  writeBuffer := []
  serverFds := ∅
  streamFds := []
  streamMsgs := []

/-- The length of the slice `&mut self.read_buffer[self.read_buf_len..]` given to `read`. -/
def readRoom (self : WorkerMsgBuffer) : Nat :=
  self.readBuffer.length - self.readBufLen

/-- One read, the decoding loop, the shift of what is left to the front, and the dequeueing
loop. The slices given to `deserialize` are returned as well, for the ledger of a run.
-/
def readUnixStream (bincode : Bincode) (self : WorkerMsgBuffer)
    (read : Except IoError Bytes) (dequeued : List RawFd)
    : Except Panic (WorkerMsgBuffer × Except IoError (List Bytes)) :=
  match read with
  | .error e => .ok (self, .error e)
  | .ok data =>
      let readBuffer := fill self.readBuffer self.readBufLen data
      let readBufLen := self.readBufLen + data.length
      let (slices, bytesRead) := bytePrefixed.split (readBuffer.take readBufLen)
      match slices.mapM bincode.deserializeRequest with
      | none => .error .deserializeRequest
      | some msgs =>
          let bytesRemaining := readBufLen - bytesRead
          .ok
            ({ self with
                readBuffer := slide readBuffer bytesRead bytesRemaining
                readBufLen := bytesRemaining
                streamMsgs := self.streamMsgs ++ msgs
                streamFds := self.streamFds ++ dequeued },
              .ok slices)

/-- Descriptors and messages are paired by position; a descriptor whose message has not
arrived is put back.
-/
def nextStreamFd (self : WorkerMsgBuffer) : Option ((Token × RawFd) × WorkerMsgBuffer) :=
  match self.streamFds, self.streamMsgs with
  | [], _ => none
  | _ :: _, [] => none
  | fd :: fds, msg :: msgs =>
      some
        ((msg.token, fd),
          { self with
            streamFds := fds
            streamMsgs := msgs
            serverFds := self.serverFds.insert msg.token msg.fd })

def hasDataToSend (self : WorkerMsgBuffer) : Bool := !self.writeBuffer.isEmpty

/-- Returns the bytes the socket accepted. -/
def writeUnixStream (self : WorkerMsgBuffer) (write : Except IoError Nat)
    : WorkerMsgBuffer × Except IoError Bytes :=
  match write with
  | .error e => (self, .error e)
  | .ok bytesWritten =>
      let bytesRemaining := self.writeBuffer.length - bytesWritten
      ({ self with
          writeBuffer :=
            (slide self.writeBuffer bytesWritten bytesRemaining).take bytesRemaining },
        .ok (self.writeBuffer.take bytesWritten))

/-- The body the four `resp_*` methods share: take the server's descriptor for the token,
and append the response's frame. The response is returned as well, for the ledger.
-/
def respond (bincode : Bincode) (self : WorkerMsgBuffer) (tk : Token) (keepAlive : Bool)
    (error : Option String)
    : Except Panic (WorkerMsgBuffer × Response) :=
  match self.serverFds.lookup tk with
  | none => .error .serverFd
  | some fd =>
      let resp : Response := { token := tk, fd, keepAlive, error }
      let msg := bincode.serializeResponse resp
      .ok
        ({ self with
            serverFds := self.serverFds.erase tk
            writeBuffer := self.writeBuffer ++ beBytes 4 msg.length ++ msg },
          resp)

def respIoError (bincode : Bincode) (self : WorkerMsgBuffer) (tk : Token) (err : IoError)
    : Except Panic (WorkerMsgBuffer × Response) :=
  self.respond bincode tk false (some ("i/o error with stream" ++ "-" ++ err.text))

def respBadClient (bincode : Bincode) (self : WorkerMsgBuffer) (tk : Token)
    : Except Panic (WorkerMsgBuffer × Response) :=
  self.respond bincode tk false (some "badly formed client request")

def respStreamRegError (bincode : Bincode) (self : WorkerMsgBuffer) (tk : Token)
    (err : IoError)
    : Except Panic (WorkerMsgBuffer × Response) :=
  self.respond bincode tk false
    (some ("couldn't register stream with mio" ++ "-" ++ err.text))

/-- The descriptor parameter of `resp_stream_done_ok` is `_`: it is not used. -/
def respStreamDoneOk (bincode : Bincode) (self : WorkerMsgBuffer) (tk : Token) (_ : RawFd)
    (keepAlive : Bool)
    : Except Panic (WorkerMsgBuffer × Response) :=
  self.respond bincode tk keepAlive none

end WorkerMsgBuffer

-----------------------------------------------------------------------------------------
-- The calls on the socket itself
-----------------------------------------------------------------------------------------

namespace UnixSocket

/-- The server's `stream.read(buf)`: some of the waiting bytes, at most the room in `buf`;
`none` where the socket cannot return so many.
-/
def serverReads (self : UnixSocket) (room : Nat)
    : Except IoError Nat → Option (Except IoError Bytes × UnixSocket)
  | .error e => some (.error e, self)
  | .ok n =>
      if n ≤ room ∧ n ≤ self.toServer.length then
        some (.ok (self.toServer.take n), { self with toServer := self.toServer.drop n })
      else
        none

/-- The worker's `stream.read(buf)`, with the descriptors a successful read makes ready
for `stream.dequeue()`.
-/
def workerReads (self : UnixSocket) (room : Nat) (ready : Nat)
    : Except IoError Nat → Option (Except IoError Bytes × List RawFd × UnixSocket)
  | .error e => some (.error e, [], self)
  | .ok n =>
      if n ≤ room ∧ n ≤ self.toWorker.length ∧ ready ≤ self.fds.length then
        some
          (.ok (self.toWorker.take n), self.fds.take ready,
            { self with
              toWorker := self.toWorker.drop n
              fds := self.fds.drop ready })
      else
        none

/-- The bytes a write handed to the socket: none when it failed. -/
def handed : Except IoError Bytes → Bytes
  | .error _ => []
  | .ok written => written

/-- The server wrote: its descriptors and bytes go to the worker. -/
def serverWrote (self : UnixSocket) (fds : List RawFd) (result : Except IoError Bytes)
    : UnixSocket :=
  { self with toWorker := self.toWorker ++ handed result, fds := self.fds ++ fds }

/-- The worker wrote: its bytes go to the server. -/
def workerWrote (self : UnixSocket) (result : Except IoError Bytes) : UnixSocket :=
  { self with toServer := self.toServer ++ handed result }

end UnixSocket

end Casket
