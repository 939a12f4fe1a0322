import Casket.Worker.Reader
import Casket.Worker.Writer

/-! `events` and `actions`: what the worker's loop is told, and what it then has to do. -/

namespace Casket

inductive Event where
  | ctrlC
  | unixStreamRead
  | unixStreamWrite
  | newStreamFd (fd : RawFd)
  | serverStreamRead
  | queuedRequests
  | pollPythonResponses
  | serverStreamWrite
  | requestReadTimeout
  | casketResponseWrite
  | pythonCodeTimeout
  deriving DecidableEq, Repr

inductive Timeout where
  | requestRead
  | pythonCode
  deriving DecidableEq, Repr

structure CasketResponse where
  code : UInt16
  response : Bytes
  reason : String
  bytesSent : Nat
  deriving DecidableEq, Repr

inductive Action where
  | newServerRequest (tk : Token) (tcpStream : TcpStream)
  | serverContinueRead (tk : Token) (reader : Reader) (tcpStream : TcpStream)
  | serverReadDone (tk : Token) (httpReq : HttpRequest) (tcpStream : TcpStream)
  | serverStreamEOF (tk : Token) (tcpStream : TcpStream)
  | serverNewResponse (tk : Token) (httpResp : HttpResponse)
  | serverContinueWrite (tk : Token) (writer : Writer) (tcpStream : TcpStream)
  | serverDoneWrite (tk : Token) (httpResp : HttpResponse) (tcpStream : TcpStream)
  | serverCasketResponseNew (tk : Token) (tcpStream : TcpStream) (casketResp : CasketResponse)
  | serverCasketResponseContinue (tk : Token) (tcpStream : TcpStream)
    (casketResp : CasketResponse)
  | serverCasketResponseDone (tk : Token) (tcpStream : TcpStream)
    (casketResp : CasketResponse)
  | serverPythonCodeTimeoutNew (tk : Token) (st : SystemTime)
  deriving DecidableEq, Repr

def http408Response : Bytes :=
  utf8 "HTTP/1.1 408 Request Timeout\r\nServer: Casket\r\nConnection: Close\r\n\r\n"

def http503Response : Bytes :=
  utf8 "HTTP/1.1 503 Service Busy\r\nServer: Casket\r\nConnection: Close\r\n\r\n"

def http504Response : Bytes :=
  utf8 "HTTP/1.1 504 Gateway Timeout\r\nServer: Casket\r\nConnection: Close\r\n\r\n"

def new408Timeout (tk : Token) (tcpStream : TcpStream) : Action :=
  .serverCasketResponseNew tk tcpStream
    { code := 408
      response := http408Response
      reason := "request read timeout"
      bytesSent := 0 }

def new503ServiceBusy (tk : Token) (tcpStream : TcpStream) : Action :=
  .serverCasketResponseNew tk tcpStream
    { code := 503
      response := http503Response
      reason := "service busy"
      bytesSent := 0 }

def new504GatewayTimeout (tk : Token) (tcpStream : TcpStream) : Action :=
  .serverCasketResponseNew tk tcpStream
    { code := 504
      response := http504Response
      reason := "gateway timeout"
      bytesSent := 0 }

/-- `actions::Error`, whose source is always the server. -/
structure ActionError where
  error : HttpError
  token : Token
  tcpStream : TcpStream
  deriving DecidableEq, Repr

abbrev ActionResult := Except ActionError Action

-----------------------------------------------------------------------------------------
-- The events of one stream
-----------------------------------------------------------------------------------------

def eventServerStreamRead (crates : Crates) (rng : Rng) (tk : Token) (tcpStream : TcpStream)
    (reader : Reader) (read : Except IoError Bytes)
    : Except Panic ActionResult :=
  match reader.readTcpStream crates rng read with
  | .error panic => .error panic
  | .ok (.error error) => .ok (.error ⟨error, tk, tcpStream⟩)
  | .ok (.ok (.partialRead reader)) => .ok (.ok (.serverContinueRead tk reader tcpStream))
  | .ok (.ok (.complete httpReq)) => .ok (.ok (.serverReadDone tk httpReq tcpStream))
  | .ok (.ok .streamEOF) => .ok (.ok (.serverStreamEOF tk tcpStream))

def eventServerStreamWrite (tk : Token) (tcpStream : TcpStream) (writer : Writer)
    (write : Except IoError Nat)
    : Except Panic ActionResult :=
  match writer.writeTcpStream write with
  | .error panic => .error panic
  | .ok (.error error) => .ok (.error ⟨error, tk, tcpStream⟩)
  | .ok (.ok (.partialWrite writer)) => .ok (.ok (.serverContinueWrite tk writer tcpStream))
  | .ok (.ok (.done httpResp)) => .ok (.ok (.serverDoneWrite tk httpResp tcpStream))

/-- The slice panics only when more was sent than there is. -/
def eventCasketResponseWrite (tk : Token) (tcpStream : TcpStream)
    (casketResp : CasketResponse) (write : Except IoError Nat)
    : Except Panic ActionResult :=
  if casketResp.response.length < casketResp.bytesSent then
    .error .sliceOutOfRange
  else
    match write with
    | .error e =>
        .ok
          (.error
            ⟨.io "failed to write casket response to tcp stream" e, tk, tcpStream⟩)
    | .ok sz =>
        let casketResp := { casketResp with bytesSent := casketResp.bytesSent + sz }
        if casketResp.bytesSent = casketResp.response.length then
          .ok (.ok (.serverCasketResponseDone tk tcpStream casketResp))
        else
          .ok (.ok (.serverCasketResponseContinue tk tcpStream casketResp))

end Casket
