import Casket.Basic

/-! `http`: requests, responses and trace contexts, and the head of a response on the wire. -/

namespace Casket

-----------------------------------------------------------------------------------------
-- The string operations the code relies on
-----------------------------------------------------------------------------------------

/-- `str::as_bytes`. -/
@[irreducible]
def utf8 (text : String) : Bytes := text.toUTF8.data.toList

/-- `str::from_utf8`. -/
def fromUtf8 (bytes : Bytes) : Option String := String.fromUTF8? ⟨bytes.toArray⟩

/-- `str::eq_ignore_ascii_case`. -/
def eqIgnoreAsciiCase (left right : String) : Bool :=
  left.toList.map Char.toLower == right.toList.map Char.toLower

/-- The value of some decimal digits; `none` where there is another character, or none. -/
def decimal? (digits : List Char) : Option Nat :=
  if digits.isEmpty || !digits.all Char.isDigit then
    none
  else
    some (digits.foldl (fun value digit => 10 * value + (digit.toNat - '0'.toNat)) 0)

/-- `str::parse::<usize>`: an optional plus sign and decimal digits, below 2^64. -/
def parseUsize (text : String) : Option Nat :=
  let value :=
    match text.toList with
    | '+' :: digits => decimal? digits
    | digits => decimal? digits
  value.filter (· < 2 ^ 64)

/-- `hex::encode`. -/
def hexEncode (bytes : Bytes) : String :=
  String.ofList
    (bytes.flatMap fun byte => [(byte.toNat / 16).digitChar, (byte.toNat % 16).digitChar])

-----------------------------------------------------------------------------------------
-- Requests and responses
-----------------------------------------------------------------------------------------

/-- The parts of `http_types::Url` the code reads. -/
structure Url where
  href : String
  path : String
  query : Option String
  deriving DecidableEq, Repr

inductive HttpError where
  | io (reason : String) (error : IoError)
  | headerParse (error : String)
  | badValue (reason : String)
  deriving DecidableEq, Repr

/-- What the random number generator returns for one context: 16 and 8 bytes. -/
structure Rng where
  traceId : Bytes
  spanId : Bytes
  deriving DecidableEq, Repr

structure Context where
  traceId : String
  spanId : String
  parentId : Option String
  deriving DecidableEq, Repr

namespace Context

def new (rng : Rng) : Context where
  traceId := hexEncode rng.traceId
  spanId := hexEncode rng.spanId
  parentId := none

def fromVals (rng : Rng) (traceId parentId : String) : Context where
  traceId := traceId
  spanId := hexEncode rng.spanId
  parentId := some parentId

end Context

structure HttpRequest where
  method : String
  url : Url
  headers : List (String × String)
  context : Context
  keepAlive : Bool
  contentType : Option String
  contentLength : Nat
  body : Option Bytes
  deriving DecidableEq, Repr

structure HttpResponseHeader where
  code : UInt16
  reason : String
  headers : List (String × String)
  deriving DecidableEq, Repr

/-- The receiving end of a body channel: the chunks sent and not yet received, and whether
the sender is still there.
-/
structure Receiver where
  queue : List Bytes
  connected : Bool
  deriving DecidableEq, Repr

inductive TryRecvError where
  | empty
  | disconnected
  deriving DecidableEq, Repr

/-- `Receiver::try_recv`: a disconnected channel is drained first. -/
def Receiver.tryRecv (self : Receiver) : Except TryRecvError (Bytes × Receiver) :=
  match self.queue with
  | chunk :: rest => .ok (chunk, { self with queue := rest })
  | [] => if self.connected then .error .empty else .error .disconnected

structure HttpResponse where
  method : String
  url : Url
  code : UInt16
  reason : String
  context : Context
  keepAlive : Bool
  reqHeaders : List (String × String)
  reqContentLength : Nat
  respHeaders : List (String × String)
  respContentLength : Option Nat
  respBody : Option Receiver
  deriving DecidableEq, Repr

/-- Change the receiving end of the body channel, if there still is one. -/
def HttpResponse.overBody (change : Receiver → Receiver) (self : HttpResponse)
    : HttpResponse :=
  { self with respBody := self.respBody.map change }

/-- The name the loop compares with is `"Content-Lenth"`, as in the source. -/
def HttpRequest.intoHttpResponse (self : HttpRequest) (header : HttpResponseHeader)
    (body : Receiver)
    : HttpResponse where
  method := self.method
  url := self.url
  code := header.code
  reason := header.reason
  context := self.context
  keepAlive := self.keepAlive
  reqHeaders := self.headers
  reqContentLength := self.contentLength
  respHeaders := header.headers
  respContentLength :=
    header.headers.foldl
      (fun length (name, value) =>
        if eqIgnoreAsciiCase name "Content-Lenth" then
          (parseUsize value).or length
        else
          length)
      none
  respBody := some body

/-- `write_header`: the bytes left in the buffer, which is cleared first. -/
def HttpResponse.writeHeader (self : HttpResponse) : Bytes :=
  utf8 "HTTP/1.1 " ++ utf8 (toString self.code.toNat) ++ utf8 " " ++ utf8 self.reason
  ++ utf8 " " ++ utf8 "\r\n"
  ++ self.respHeaders.flatMap (fun (name, value) =>
      utf8 name ++ utf8 ": " ++ utf8 value ++ utf8 "\r\n")
  ++ utf8 "X-TraceId" ++ utf8 ": " ++ utf8 self.context.traceId ++ utf8 "\r\n"
  ++ utf8 "Connection" ++ utf8 ": "
  ++ utf8 (if self.keepAlive then "Keep-Alive" else "Close") ++ utf8 "\r\n"
  ++ utf8 "Server" ++ utf8 ": " ++ utf8 "Casket" ++ utf8 "\r\n"
  ++ utf8 "\r\n"

end Casket
