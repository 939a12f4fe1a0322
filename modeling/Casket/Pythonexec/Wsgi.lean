import Casket.Http.Types

/-! `wsgi` and `reqlocal`: the environment of a request, the calls of `start_response`, and
the iterator over the body. An application is what it does when it is called and at each
step of the iterator it returns.
-/

namespace Casket

-----------------------------------------------------------------------------------------
-- What an application does
-----------------------------------------------------------------------------------------

/-- An exception, by the two texts `build_exec_err` makes of it. Its own text is available: its
`str` does not raise.
-/
structure ExecError where
  traceback : String
  value : String
  deriving DecidableEq, Repr

/-- An item of the header list given to `start_response`. -/
inductive HeaderItem where
  | notTuple
  | wrongLength
  | notStrings
  | pair (name value : String)
  deriving DecidableEq, Repr

/-- A call of `start_response`. -/
structure StartCall where
  status : String
  headers : List HeaderItem
  deriving DecidableEq, Repr

/-- What a step of the iterator gives. -/
inductive IterResult where
  | stop
  | chunk (bytes : Bytes)
  | notBytes (error : ExecError)
  | raised (error : ExecError)
  deriving DecidableEq, Repr

/-- The calls of `start_response` made on the way to a result. -/
structure AppStep (α : Type) where
  starts : List StartCall
  result : α

/-- The steps of an iterator, also those after it has stopped or raised. -/
abbrev PyIterator := Nat → AppStep IterResult

inductive EnvironValue where
  | text (text : String)
  | number (number : Nat)
  | flag (flag : Bool)
  | version (major minor : Nat)
  | wsgiInput (body : Bytes)
  | wsgiError
  | traceContext (context : Context)
  deriving DecidableEq, Repr

/-- The dictionary an application is given. -/
abbrev Environ := AList (fun _ : String => EnvironValue)

/-- The callable: it raises, or returns something that can be iterated. -/
abbrev WsgiCallable := Environ → AppStep (Except ExecError PyIterator)

-----------------------------------------------------------------------------------------
-- The thread's request-local data
-----------------------------------------------------------------------------------------

structure ReqLocal where
  context : Option Context
  responseHeader : Option HttpResponseHeader
  deriving DecidableEq, Repr

namespace ReqLocal

/-- `init_req_thread`, and what a new thread starts with. -/
def init : ReqLocal := ⟨none, none⟩

def setContext (self : ReqLocal) (context : Context) : ReqLocal :=
  { self with context := some context }

def putResponseHeader (self : ReqLocal) (header : HttpResponseHeader) : ReqLocal :=
  { self with responseHeader := some header }

def takeResponseHeader (self : ReqLocal) : Option HttpResponseHeader × ReqLocal :=
  (self.responseHeader, { self with responseHeader := none })

end ReqLocal

-----------------------------------------------------------------------------------------
-- `start_response`
-----------------------------------------------------------------------------------------

/-- `httparse::Response::parse` on one status line: the code and the reason it found. A
reason ends before the line does.
-/
structure StatusParser where
  parse : Bytes → Option (Option UInt16 × Option String)
  oneLine
    : ∀ {line code reason}, parse line = some (code, some reason) → 13 ∉ utf8 reason

/-- The exceptions `start_response` raises. -/
inductive StartError where
  | value (message : String)
  | downcast
  deriving DecidableEq, Repr

def parseStatus (parser : StatusParser) (status : String)
    : Except StartError (UInt16 × String) :=
  match parser.parse (utf8 "HTTP/1.1 " ++ utf8 status ++ utf8 "\r\n") with
  | none => .error (.value "status string given to start_response not valid")
  | some (none, _) =>
      .error (.value "status string given to start response missing code")
  | some (some _, none) =>
      .error (.value "status string given to start response not valid")
  | some (some code, some reason) => .ok (code, reason)

def HeaderItem.get : HeaderItem → Except StartError (String × String)
  | .notTuple | .notStrings => .error .downcast
  | .wrongLength => .error (.value "headers should be a list of tuples")
  | .pair name value => .ok (name, value)

/-- `StartResponse::__call__`, up to where it puts the header. -/
def startResponse (parser : StatusParser) (call : StartCall)
    : Except StartError HttpResponseHeader :=
  match parseStatus parser call.status with
  | .error e => .error e
  | .ok (code, reason) =>
      match call.headers.mapM HeaderItem.get with
      | .error e => .error e
      | .ok headers => .ok { code, reason, headers }

/-- Some calls in a row; one that raises puts nothing. -/
def ReqLocal.start (parser : StatusParser) (self : ReqLocal) (calls : List StartCall)
    : ReqLocal :=
  calls.foldl
    (fun self call =>
      match startResponse parser call with
      | .error _ => self
      | .ok header => self.putResponseHeader header)
    self

-----------------------------------------------------------------------------------------
-- The environment
-----------------------------------------------------------------------------------------

/-- The entries of the request's own headers, and the headers in upper case. -/
def headerEntries (headers : List (String × String)) : List (String × EnvironValue) :=
  headers.map fun (name, value) =>
    ("HTTP_" ++ name.toUpper.replace "-" "_", .text value)

/-- The items in the order they are set. -/
def environItems (server : String × UInt16) (req : HttpRequest)
    : List (String × EnvironValue) :=
  [("REQUEST_METHOD", EnvironValue.text req.method.toUpper),
    ("SCRIPT_NAME", EnvironValue.text req.url.path),
    ("PATH_INFO", EnvironValue.text req.url.path)]
  ++ (req.url.query.map fun query => ("QUERY_STRING", EnvironValue.text query)).toList
  ++ (req.contentType.map fun contentType =>
        ("CONTENT_TYPE", EnvironValue.text contentType)).toList
  ++ (req.body.map fun body => ("CONTENT_LENGTH", EnvironValue.number body.length)).toList
  ++ [("SERVER_NAME", EnvironValue.text server.1),
    ("SERVER_PORT", EnvironValue.number server.2.toNat),
    ("SERVER_PROTOCOL", EnvironValue.text "HTTP/1.1")]
  ++ headerEntries req.headers
  ++ [("wsgi.version", EnvironValue.version 1 0),
    ("wsgi.url_scheme", EnvironValue.text "http"),
    ("wsgi.input", EnvironValue.wsgiInput (req.body.getD [])),
    ("wsgi.errors", EnvironValue.wsgiError),
    ("wsgi.multithread", EnvironValue.flag true),
    ("wsgi.multiprocess", EnvironValue.flag true),
    ("wsgi.run_once", EnvironValue.flag false),
    ("casket.trace_ctx", EnvironValue.traceContext req.context)]

/-- The dictionary, and the request, whose header names are now in upper case and whose body
was taken.
-/
def buildEnviron (server : String × UInt16) (req : HttpRequest) : Environ × HttpRequest :=
  ((environItems server req).foldl (fun environ (key, value) => environ.insert key value) ∅,
    { req with
      headers := req.headers.map fun (name, value) => (name.toUpper, value)
      body := none })

-----------------------------------------------------------------------------------------
-- The body
-----------------------------------------------------------------------------------------

/-- `next_body_chunk` at some step of the iterator. -/
def nextBodyChunk (iter : PyIterator) (pos : Nat) : Except ExecError (Option Bytes) :=
  match (iter pos).result with
  | .stop => .ok none
  | .chunk bytes => .ok (some bytes)
  | .notBytes e | .raised e => .error e

/-- `BytesIter`: a chunk read ahead, and the steps taken. -/
structure BytesIter where
  nextVal : Option Bytes
  bytesIter : PyIterator
  pos : Nat

namespace BytesIter

def new (iter : PyIterator) : Except ExecError BytesIter :=
  match nextBodyChunk iter 0 with
  | .error e => .error e
  | .ok nextVal => .ok { nextVal, bytesIter := iter, pos := 1 }

/-- The chunk read ahead, unless reading the one after it fails. -/
def next (self : BytesIter) : Except ExecError (Option Bytes) × BytesIter :=
  match nextBodyChunk self.bytesIter self.pos with
  | .error e => (.error e, { self with pos := self.pos + 1 })
  | .ok nextVal => (.ok self.nextVal, { self with nextVal, pos := self.pos + 1 })

end BytesIter

-----------------------------------------------------------------------------------------
-- Calling the application
-----------------------------------------------------------------------------------------

/-- `execute`: what it returns, the request it leaves, and the request-local data. The text of an
exception is available where the call or the iterator raises.
-/
def execute (parser : StatusParser) (wsgiCallable : WsgiCallable) (server : String × UInt16)
    (locals : ReqLocal) (req : HttpRequest)
    : Except ExecError (HttpResponseHeader × BytesIter) × HttpRequest × ReqLocal :=
  let (environ, req) := buildEnviron server req
  let call := wsgiCallable environ
  let locals := locals.start parser call.starts
  match call.result with
  | .error e => (.error e, req, locals)
  | .ok iter =>
      match locals.takeResponseHeader with
      | (none, locals) => (.error ⟨"", "start_response not called"⟩, req, locals)
      | (some header, locals) =>
          let locals := locals.start parser (iter 0).starts
          match BytesIter.new iter with
          | .error e => (.error e, req, locals)
          | .ok bytesIter => (.ok (header, bytesIter), req, locals)

def handlePythonExcBodyStacktrace (err : ExecError) : HttpResponseHeader × Bytes :=
  ({ code := 500
     reason := "Internal Server Error"
     headers :=
       [("Content-Length", toString (utf8 err.traceback).length),
         ("Content-Type", "text/plain; charset=UTF-8"),
         ("X-Error", err.value)] },
    utf8 err.traceback)

def handlePythonExcEmpty : HttpResponseHeader × Bytes :=
  ({ code := 500
     reason := "Internal Server Error"
     headers := [("Content-Length", "0")] },
    [])

def handleWsgiExecErr (cfg : Config) (err : ExecError) : HttpResponseHeader × Bytes :=
  if cfg.bodyStacktrace then handlePythonExcBodyStacktrace err else handlePythonExcEmpty

end Casket
