import Casket.Msgs.Buffers

/-! The server's side of the worker sockets: one message buffer, one interest and one
count of open requests for each worker.
-/

namespace Casket

inductive StreamInterest where
  | not
  | read
  | write
  | readWrite
  deriving DecidableEq, Repr

def StreamInterest.fromRw : (pollRead pollWrite : Bool) → StreamInterest
  | false, false => .not
  | false, true => .write
  | true, false => .read
  | true, true => .readWrite

structure UnixStream where
  token : Token
  stream : UnixSocket
  msgBuffer : ServerMsgBuffer
  interest : StreamInterest
  numReqs : Nat
  deriving DecidableEq, Repr

namespace UnixStream

def new (token : Token) (stream : UnixSocket) : UnixStream where
  token := token
  stream := stream
  msgBuffer := .new
  interest := .not
  numReqs := 0

/-- An i/o error is only logged by the caller, so it is not returned. -/
def readStream (bincode : Bincode) (self : UnixStream) (read : Except IoError Nat)
    : Option (Except Panic UnixStream) :=
  (self.stream.serverReads self.msgBuffer.readRoom read).map fun (result, stream) =>
    (self.msgBuffer.readUnixStream bincode result).map fun (msgBuffer, _) =>
      { self with stream, msgBuffer }

def writeStream (bincode : Bincode) (self : UnixStream) (accepted : Nat)
    (write : Except IoError Nat)
    : UnixStream :=
  let (msgBuffer, fds, result) := self.msgBuffer.writeUnixStream bincode accepted write
  { self with msgBuffer, stream := self.stream.serverWrote fds result }

/-- The call `reregister` makes, if any: the present interest against the wanted one. -/
def registryCall (self : UnixStream) : Option RegistryCall :=
  let pollRead : Bool := 0 < self.numReqs
  let pollWrite := self.msgBuffer.hasDataToSend
  match self.interest, pollRead, pollWrite with
  | .not, true, true => some (.register ⟨true, true⟩)
  | .not, false, true => some (.register ⟨false, true⟩)
  | .not, true, false => some (.register ⟨true, false⟩)
  | .read, false, false => some .deregister
  | .read, false, true => some (.reregister ⟨false, true⟩)
  | .read, true, true => some (.reregister ⟨true, true⟩)
  | .write, false, false => some .deregister
  | .write, true, false => some (.reregister ⟨true, false⟩)
  | .write, true, true => some (.reregister ⟨true, true⟩)
  | .readWrite, false, false => some .deregister
  | .readWrite, false, true => some (.reregister ⟨false, true⟩)
  | .readWrite, true, false => some (.reregister ⟨true, false⟩)
  | _, _, _ => none

/-- `succeeds` is the outcome of the call, where one is made; a failed call returns early
and leaves the interest as it was.
-/
def reregister (self : UnixStream) (succeeds : Bool) (registry : TokenMap Interest)
    : UnixStream × TokenMap Interest :=
  let wanted := StreamInterest.fromRw (0 < self.numReqs) self.msgBuffer.hasDataToSend
  match self.registryCall with
  | none => ({ self with interest := wanted }, registry)
  | some call =>
      if succeeds then
        ({ self with interest := wanted }, call.apply self.token registry)
      else
        (self, registry)

/-- The body of `next_stream_tk` and `next_stream_close_tk`, which differ in the queue. -/
def nextToken (pop : ServerMsgBuffer → Option (Token × ServerMsgBuffer))
    (self : UnixStream)
    : Except Panic (Option (Token × UnixStream)) :=
  match pop self.msgBuffer with
  | none => .ok none
  | some (tk, msgBuffer) =>
      if self.numReqs = 0 then
        .error .numReqsUnderflow
      else
        .ok (some (tk, { self with msgBuffer, numReqs := self.numReqs - 1 }))

def nextStreamTk : UnixStream → Except Panic (Option (Token × UnixStream)) :=
  nextToken ServerMsgBuffer.nextStreamTk

def nextStreamCloseTk : UnixStream → Except Panic (Option (Token × UnixStream)) :=
  nextToken ServerMsgBuffer.nextStreamCloseTk

def msgSendTcpStream (self : UnixStream) (tk : Token) (fd : RawFd) : UnixStream :=
  { self with
    numReqs := self.numReqs + 1
    msgBuffer := self.msgBuffer.reqTcpStreamFd tk fd }

/-- `while let Some(tk) = stream.next_..() { tks.push(tk); }`; a queue holds no more than
`fuel` tokens.
-/
def drain (next : UnixStream → Except Panic (Option (Token × UnixStream)))
    : Nat → UnixStream → Except Panic (List Token × UnixStream)
  | 0, self => .ok ([], self)
  | fuel + 1, self =>
      match next self with
      | .error panic => .error panic
      | .ok none => .ok ([], self)
      | .ok (some (tk, self)) =>
          match drain next fuel self with
          | .error panic => .error panic
          | .ok (tks, self) => .ok (tk :: tks, self)

end UnixStream

-----------------------------------------------------------------------------------------
-- All worker sockets of the server
-----------------------------------------------------------------------------------------

namespace UnixStreams

/-- The position of the stream with this token, in the order `get_mut` searches. -/
def position? (streams : List UnixStream) (tk : Token) : Option Nat :=
  streams.findIdx? (·.token == tk)

/-- The loop of `next_stream_tks` and `next_stream_close_tks` over the streams. -/
def drainAll (next : UnixStream → Except Panic (Option (Token × UnixStream)))
    (waiting : UnixStream → Nat)
    : List UnixStream → Except Panic (List Token × List UnixStream)
  | [] => .ok ([], [])
  | stream :: rest =>
      match stream.drain next (waiting stream) with
      | .error panic => .error panic
      | .ok (tks, stream) =>
          match drainAll next waiting rest with
          | .error panic => .error panic
          | .ok (more, rest) => .ok (tks ++ more, stream :: rest)

def nextStreamTks (streams : List UnixStream)
    : Except Panic (List Token × List UnixStream) :=
  drainAll UnixStream.nextStreamTk (·.msgBuffer.streamTks.length) streams

def nextStreamCloseTks (streams : List UnixStream)
    : Except Panic (List Token × List UnixStream) :=
  drainAll UnixStream.nextStreamCloseTk (·.msgBuffer.streamCloseTks.length) streams

/-- The first stream with the least number of requests; 0 while none is below the start
value `usize::MAX`.
-/
def leastLoaded (streams : List UnixStream) : Nat :=
  (streams.zipIdx.foldl
    (fun best stream =>
      if stream.1.numReqs < best.2 then (stream.2, stream.1.numReqs) else best)
    (0, 2 ^ 64 - 1)).1

def msgSendTcpStream (streams : List UnixStream) (tk : Token) (fd : RawFd)
    : Except Panic (List UnixStream) :=
  match streams[leastLoaded streams]? with
  | none => .error .noUnixStream
  | some stream =>
      .ok (streams.set (leastLoaded streams) (stream.msgSendTcpStream tk fd))

/-- Every stream is brought to its wanted interest, as far as the calls succeed. -/
def reregister (succeeds : Token → Bool)
    : List UnixStream → TokenMap Interest → List UnixStream × TokenMap Interest
  | [], registry => ([], registry)
  | stream :: rest, registry =>
      let (stream, registry) := stream.reregister (succeeds stream.token) registry
      let (rest, registry) := reregister succeeds rest registry
      (stream :: rest, registry)

end UnixStreams
end Casket
