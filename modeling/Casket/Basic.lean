import Mathlib.Algebra.Group.Int.Defs
import Mathlib.Algebra.Group.Nat.Defs
import Mathlib.Data.List.AList

/-! The plain data shared by the server, its workers and their python threads.
Machine words are fixed width; a file descriptor is the kernel's number for it.
-/

namespace Casket

abbrev Bytes := List UInt8

/-- `mio::Token(usize)` on a 64-bit machine. -/
abbrev Token := UInt64

/-- `std::os::unix::io::RawFd`, a C `int`. -/
abbrev RawFd := Int32

/-- A hash map keyed by tokens. The order of its entries carries no meaning. -/
abbrev TokenMap (α : Type) := AList (fun _ : Token => α)

/-- The part of `io::Error` the program looks at: its kind, and its `Display` text. -/
structure IoError where
  interrupted : Bool
  text : String
  deriving DecidableEq, Repr

/-- Nanoseconds since the epoch; the seconds are a signed 64-bit word. -/
abbrev SystemTime := Int

/-- A span in nanoseconds. -/
abbrev Duration := Nat

/-- `SystemTime + Duration`, which panics when the seconds overflow. -/
def SystemTime.add? (time : SystemTime) (span : Duration) : Option SystemTime :=
  if (time + span) / 1000000000 < 2 ^ 63 then some (time + span) else none

/-- An open client connection, owned through its descriptor. -/
structure TcpStream where
  fd : RawFd
  deriving DecidableEq, Repr

inductive RuntimeError where
  | io (reason : String) (error : IoError)
  | pythonThreadsDied
  | forkFailed
  | unknownToken
  deriving DecidableEq, Repr

/-- `RuntimeResult`: what the two event loops return. -/
abbrev RuntimeResult := Except RuntimeError Unit

/-- The ways the modelled code can panic, named after the expectation that fails. -/
inductive Panic where
  | deserializeRequest
  | deserializeResponse
  | serverFd
  | processingStream
  | numReqsUnderflow
  | subtractOverflow
  | noUnixStream
  | readReg
  | writeReg
  | readingStream
  | writingStream
  | casketResponse
  | pendingStream
  | numPendingReqsUnderflow
  | timeOverflow
  | capacityOverflow
  | sliceOutOfRange
  | requestNotParsed
  | workqIndex
  | bytesWrittenUnderflow
  deriving DecidableEq, Repr

/-- `config::Config`, without the version that is only printed. -/
structure Config where
  numWorkers : Nat
  numThreads : Nat
  hostname : String
  port : UInt16
  maxConns : Nat
  maxRequests : Nat
  bodyStacktrace : Bool
  logResponse : Bool
  ctrlcWaitTime : Duration
  requestReadTimeout : Duration
  pythonCodeTimeout : Duration
  deriving DecidableEq, Repr

/-- `Config::default`. The host name is read from a file. -/
def Config.default (hostname : String) : Config where
  numWorkers := 3
  numThreads := 2
  hostname := hostname
  port := 8080
  maxConns := 256
  maxRequests := 64
  bodyStacktrace := true
  logResponse := true
  ctrlcWaitTime := 10 * 10 ^ 9
  requestReadTimeout := 30 * 10 ^ 9
  pythonCodeTimeout := 10 * 10 ^ 9

/-- What a source is registered for. -/
structure Interest where
  readable : Bool
  writable : Bool
  deriving DecidableEq, Repr

/-- A call on `mio::Registry`. -/
inductive RegistryCall where
  | register (interest : Interest)
  | reregister (interest : Interest)
  | deregister
  deriving DecidableEq, Repr

/-- The effect of a successful call made for the source with this token. -/
def RegistryCall.apply (tk : Token) : RegistryCall → TokenMap Interest → TokenMap Interest
  | .register interest, registry => registry.insert tk interest
  | .reregister interest, registry => registry.insert tk interest
  | .deregister, registry => registry.erase tk

/-- `mio`'s `Event`, as far as the loops look at it. -/
structure MioEvent where
  token : Token
  readable : Bool
  writable : Bool
  deriving DecidableEq, Repr

/-- Both ends of the socket pair between the server and one worker: the bytes in flight
each way, and the descriptors enqueued by the server that the worker has not dequeued.
-/
structure UnixSocket where
  toWorker : Bytes
  toServer : Bytes
  fds : List RawFd
  deriving DecidableEq, Repr

/-- `UnixStream::pair`: nothing has been sent. -/
def UnixSocket.pair : UnixSocket := ⟨[], [], []⟩

end Casket
