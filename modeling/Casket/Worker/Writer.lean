import Casket.Http.Types
import Casket.Lib.Buffer

/-! `serverwriter`: a response is written from a buffer that holds its head at first, and
takes one chunk of the body from its channel before each write.
-/

namespace Casket

open Lib

structure Writer where
  httpResp : HttpResponse
  buffer : Bytes
  headerSize : Nat
  bytesWritten : Nat
  deriving DecidableEq, Repr

/-- `serverwriter::State`. -/
inductive WriteState where
  | partialWrite (writer : Writer)
  | done (resp : HttpResponse)
  deriving DecidableEq, Repr

namespace Writer

/-- The buffer it is given is cleared. -/
def new (httpResp : HttpResponse) : Writer where
  httpResp := httpResp
  buffer := httpResp.writeHeader
  headerSize := httpResp.writeHeader.length
  bytesWritten := 0

/-- At most one chunk is taken; the channel is dropped once the sender is. -/
def takeChunk (self : Writer) : Writer :=
  match self.httpResp.respBody with
  | none => self
  | some body =>
      match body.tryRecv with
      | .ok (bodyPart, body) =>
          { self with
            buffer := self.buffer ++ bodyPart
            httpResp := { self.httpResp with respBody := some body } }
      | .error .empty => self
      | .error .disconnected =>
          { self with httpResp := { self.httpResp with respBody := none } }

/-- What is done after a write: the bytes left are shifted to the front, one by one. -/
def wrote (self : Writer) (bytesWritten : Nat) : Except Panic WriteState :=
  if self.buffer.length < bytesWritten then
    .error .subtractOverflow
  else
    let bytesRemaining := self.buffer.length - bytesWritten
    let writer : Writer :=
      { self with
        buffer := (slide self.buffer bytesWritten bytesRemaining).take bytesRemaining
        bytesWritten := self.bytesWritten + bytesWritten }
    if writer.buffer.isEmpty && writer.httpResp.respBody.isNone then
      if writer.bytesWritten < writer.headerSize then
        .error .bytesWrittenUnderflow
      else
        .ok
          (.done
            { writer.httpResp with
              respContentLength := some (writer.bytesWritten - writer.headerSize) })
    else
      .ok (.partialWrite writer)

/-- `write_tcp_stream`, given what the write returned. -/
def writeTcpStream (self : Writer) (write : Except IoError Nat)
    : Except Panic (Except HttpError WriteState) :=
  match write with
  | .error e => .ok (.error (.io "failed to write response to tcp stream" e))
  | .ok bytesWritten =>
      match self.takeChunk.wrote bytesWritten with
      | .error panic => .error panic
      | .ok state => .ok (.ok state)

end Writer
end Casket
