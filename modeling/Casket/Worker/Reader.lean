import Casket.Http.Types
import Casket.Lib.Buffer

/-! `serverreader`: a request is read into a growing buffer until its head is complete, then
into a body of the declared length. A read is given the bytes it returned.
-/

namespace Casket

open Lib

-----------------------------------------------------------------------------------------
-- The crates the reader calls
-----------------------------------------------------------------------------------------

/-- What `httparse::Request` holds after a parse. -/
structure ParsedRequest where
  method : Option String
  path : Option String
  headers : List (String × Bytes)
  deriving DecidableEq, Repr

/-- The result of `httparse::Request::parse`. -/
inductive ParseResult where
  | error (error : String)
  | partialHead
  | complete (headerSize : Nat) (request : ParsedRequest)
  deriving DecidableEq, Repr

/-- `httparse` with room for 24 headers, and the two parsers of `http_types`. A complete
head is part of the bytes and has a method and a path.
-/
structure Crates where
  parseRequest : Bytes → ParseResult
  parseMethod : String → Option String
  parseUrl : String → Option Url
  headerSize_le
    : ∀ {bytes headerSize request},
        parseRequest bytes = .complete headerSize request → headerSize ≤ bytes.length
  hasMethod
    : ∀ {bytes headerSize request},
        parseRequest bytes = .complete headerSize request → request.method.isSome
  hasPath
    : ∀ {bytes headerSize request},
        parseRequest bytes = .complete headerSize request → request.path.isSome

-----------------------------------------------------------------------------------------
-- The vector operations that can panic
-----------------------------------------------------------------------------------------

/-- `isize::MAX`, the most bytes a vector may ask for. -/
def isizeMax : Nat := 2 ^ 63 - 1

/-- `Vec::resize` with zeros. -/
def resize (buf : Bytes) (size : Nat) : Except Panic Bytes :=
  if isizeMax < size then
    .error .capacityOverflow
  else
    .ok (buf.take size ++ List.replicate (size - buf.length) 0)

/-- `&buf[start..]`. -/
def sliceFrom (buf : Bytes) (start : Nat) : Except Panic Bytes :=
  if start ≤ buf.length then .ok (buf.drop start) else .error .sliceOutOfRange

-----------------------------------------------------------------------------------------
-- Trace contexts
-----------------------------------------------------------------------------------------

/-- The loop of `parse_context` over the parts of the value, from part `n` on. -/
def parseContextParts : Nat → List String → String × String → Except String (String × String)
  | _, [], ids => .ok ids
  | 0, v :: rest, ids =>
      if v ≠ "00" then
        .error "unsupported traceparent version"
      else
        parseContextParts 1 rest ids
  | 1, v :: rest, ids => parseContextParts 2 rest (v, ids.2)
  | 2, v :: rest, ids => parseContextParts 3 rest (ids.1, v)
  | 3, _ :: rest, ids => parseContextParts 4 rest ids
  | _ + 4, _ :: _, _ => .error "traceparent header should have four parts"

def isHexstring (id : String) : Bool :=
  id.toList.all fun c => "0123456789abcdef".toList.contains c

def parseContext (rng : Rng) (val : String) : Except String Context :=
  match parseContextParts 0 ((val.toList.splitOn '-').map String.ofList) ("", "") with
  | .error e => .error e
  | .ok (traceId, parentId) =>
      if traceId.utf8ByteSize ≠ 32 || parentId.utf8ByteSize ≠ 16 then
        .error "badly formed traceparent header"
      else if !isHexstring traceId then
        .error "trace_id is not a hexstring"
      else if !isHexstring parentId then
        .error "parent_id is not a hexstring"
      else
        .ok (.fromVals rng traceId parentId)

-----------------------------------------------------------------------------------------
-- The head of a request
-----------------------------------------------------------------------------------------

structure PartialHttpReq where
  method : String
  headers : List (String × String)
  url : Url
  contentType : Option String
  contentLength : Nat
  keepAlive : Bool
  body : Bytes
  bytesRead : Nat
  context : Context
  deriving DecidableEq, Repr

/-- The locals of the loop over the headers. -/
structure HeadFields where
  contentType : Option String
  host : Option String
  keepAlive : Bool
  contentLength : Nat
  context : Option Context
  headers : List (String × String)
  deriving DecidableEq, Repr

namespace HeadFields

def new : HeadFields where
  contentType := none
  host := none
  keepAlive := true
  contentLength := 0
  context := none
  headers := []

/-- A header whose value is text; only a bad length is an error. -/
def textHeader (rng : Rng) (self : HeadFields) (name value : String)
    : Except HttpError HeadFields :=
  let self :=
    if eqIgnoreAsciiCase name "Content-Type" then
      { self with contentType := some value }
    else
      self
  let length :=
    if eqIgnoreAsciiCase name "Content-Length" then
      parseUsize value
    else
      some self.contentLength
  match length with
  | none => .error (.badValue "Content-Length not uint")
  | some contentLength =>
      .ok
        { self with
          contentLength
          host := if eqIgnoreAsciiCase name "Host" then some value else self.host
          context :=
            if eqIgnoreAsciiCase name "Traceparent" then
              (parseContext rng value).toOption.or self.context
            else
              self.context
          keepAlive :=
            if eqIgnoreAsciiCase name "Connection" && eqIgnoreAsciiCase value "Close" then
              false
            else
              self.keepAlive
          headers := self.headers ++ [(name, value)] }

/-- One turn of the loop. -/
def header (rng : Rng) (self : HeadFields) (h : String × Bytes)
    : Except HttpError HeadFields :=
  match fromUtf8 h.2 with
  | none => .error (.badValue "header value not utf8")
  | some value => self.textHeader rng h.1 value

/-- The loop, which stops at the first error. -/
def loop (rng : Rng) : HeadFields → List (String × Bytes) → Except HttpError HeadFields
  | self, [] => .ok self
  | self, h :: rest =>
      match self.header rng h with
      | .error e => .error e
      | .ok self => self.loop rng rest

end HeadFields

/-- `str::starts_with`. -/
def startsWith (text front : String) : Bool := front.toList.isPrefixOf text.toList

def url (crates : Crates) (host path : String) : Except HttpError Url :=
  if startsWith path "http://" || startsWith path "https://" then
    match crates.parseUrl path with
    | none => .error (.badValue "invalid http path")
    | some url => .ok url
  else if startsWith path "/" then
    match crates.parseUrl ("http://" ++ host ++ path) with
    | none => .error (.badValue "invalid path in http header")
    | some url => .ok url
  else
    .error (.badValue "invalid path in http header")

namespace PartialHttpReq

def new (crates : Crates) (rng : Rng) (request : ParsedRequest)
    : Except Panic (Except HttpError PartialHttpReq) :=
  match request.method with
  | none => .error .requestNotParsed
  | some method =>
      match crates.parseMethod method with
      | none => .ok (.error (.badValue "http request with unrecognised method"))
      | some method =>
          match HeadFields.new.loop rng request.headers with
          | .error e => .ok (.error e)
          | .ok fields =>
              match fields.host with
              | none => .ok (.error (.badValue "http request missing host header"))
              | some host =>
                  match request.path with
                  | none => .error .requestNotParsed
                  | some path =>
                      match Casket.url crates host path with
                      | .error e => .ok (.error e)
                      | .ok url =>
                          .ok
                            (.ok
                              { method
                                headers := fields.headers
                                url
                                contentType := fields.contentType
                                contentLength := fields.contentLength
                                keepAlive := fields.keepAlive
                                body := []
                                bytesRead := 0
                                context := fields.context.getD (.new rng) })

/-- `reserve` panics before anything is copied, when the capacity would not fit an `isize`. Any
other allocation is granted; a process that is refused one is aborted.
-/
def takeBody (self : PartialHttpReq) (buffer : Bytes) (headerSize : Nat)
    : Except Panic (Except HttpError PartialHttpReq) :=
  match sliceFrom buffer headerSize with
  | .error panic => .error panic
  | .ok rest =>
      if self.contentLength < rest.length then
        .ok (.error (.badValue "content-length too large"))
      else if isizeMax < self.body.length + self.contentLength then
        .error .capacityOverflow
      else
        match resize (self.body ++ rest) self.contentLength with
        | .error panic => .error panic
        | .ok body =>
            .ok (.ok { self with body, bytesRead := buffer.length - headerSize })

def readTcpStream (self : PartialHttpReq) (read : Except IoError Bytes)
    : Except Panic (Except HttpError PartialHttpReq) :=
  match sliceFrom self.body self.bytesRead with
  | .error panic => .error panic
  | .ok _ =>
      match read with
      | .error e => .ok (.error (.io "failed to ready request body on tcp stream" e))
      | .ok [] => .ok (.error (.badValue "stream EOF without complete body"))
      | .ok data =>
          .ok
            (.ok
              { self with
                body := fill self.body self.bytesRead data
                bytesRead := self.bytesRead + data.length })

def isDone (self : PartialHttpReq) : Bool := self.bytesRead = self.contentLength

/-- `From<PartialHttpReq> for HttpRequest`. -/
def toHttpRequest (req : PartialHttpReq) : HttpRequest where
  method := req.method
  url := req.url
  headers := req.headers
  context := req.context
  keepAlive := req.keepAlive
  contentType := req.contentType
  contentLength := req.contentLength
  body := some req.body

end PartialHttpReq

-----------------------------------------------------------------------------------------
-- The reader
-----------------------------------------------------------------------------------------

/-- `Reader` with its `InnerState`. -/
inductive Reader where
  | begin (bufLen : Nat) (buf : Bytes)
  | haveHeader (req : PartialHttpReq)
  deriving DecidableEq, Repr

/-- `serverreader::State`. -/
inductive ReadState where
  | partialRead (reader : Reader)
  | complete (req : HttpRequest)
  | streamEOF
  deriving DecidableEq, Repr

namespace Reader

def new : Reader := .begin 0 (List.replicate 2048 0)

/-- Complete if the body is all there, and to be continued if not. -/
def settle (req : PartialHttpReq) : ReadState :=
  if req.isDone then .complete req.toHttpRequest else .partialRead (.haveHeader req)

/-- `if buf.len() - buf_len < 1024 { buf.resize(buf.len() * 2, 0); }`. -/
def growBuffer (bufLen : Nat) (buf : Bytes) : Except Panic Bytes :=
  if buf.length < bufLen then
    .error .subtractOverflow
  else if buf.length - bufLen < 1024 then
    resize buf (buf.length * 2)
  else
    .ok buf

/-- What is done with the bytes received so far, after a successful read. -/
def parseHeader (crates : Crates) (rng : Rng) (bufLen : Nat) (buf : Bytes)
    : Except Panic (Except HttpError ReadState) :=
  if buf.length < bufLen then
    .error .sliceOutOfRange
  else
    match crates.parseRequest (buf.take bufLen) with
    | .error e => .ok (.error (.headerParse e))
    | .partialHead => .ok (.ok (.partialRead (.begin bufLen buf)))
    | .complete headerSize request =>
        match PartialHttpReq.new crates rng request with
        | .error panic => .error panic
        | .ok (.error e) => .ok (.error e)
        | .ok (.ok req) =>
            match req.takeBody (buf.take bufLen) headerSize with
            | .error panic => .error panic
            | .ok (.error e) => .ok (.error e)
            | .ok (.ok req) => .ok (.ok (settle req))

def readHeader (crates : Crates) (rng : Rng) (bufLen : Nat) (buf : Bytes)
    (read : Except IoError Bytes)
    : Except Panic (Except HttpError ReadState) :=
  match growBuffer bufLen buf with
  | .error panic => .error panic
  | .ok buf =>
      match sliceFrom buf bufLen with
      | .error panic => .error panic
      | .ok _ =>
          match read with
          | .error e =>
              .ok (.error (.io "failed to read tcp stream for server request" e))
          | .ok [] => .ok (.ok .streamEOF)
          | .ok data => parseHeader crates rng (bufLen + data.length) (fill buf bufLen data)

def readTcpStream (crates : Crates) (rng : Rng) (self : Reader)
    (read : Except IoError Bytes)
    : Except Panic (Except HttpError ReadState) :=
  match self with
  | .begin bufLen buf => readHeader crates rng bufLen buf read
  | .haveHeader req =>
      match req.readTcpStream read with
      | .error panic => .error panic
      | .ok (.error e) => .ok (.error e)
      | .ok (.ok req) => .ok (.ok (settle req))

/-- The length of the slice the next read is given. -/
def room : Reader → Nat
  | .begin bufLen buf =>
      match growBuffer bufLen buf with
      | .error _ => 0
      | .ok buf => buf.length - bufLen
  | .haveHeader req => req.body.length - req.bytesRead

end Reader
end Casket
