import Casket.Pythonexec.Wsgi

/-! `run`: what a python thread does with one request, up to the response it sends and in
the turns of the loop that streams the body.
-/

namespace Casket

/-- The sending end of a body channel, by what the thread has left to send on it. -/
inductive BodySender where
  | memory (body : Bytes)
  | pyIterator (bytesIter : BytesIter)
  | spent
  | dropped

/-- The header and the body of the response to one request, the request, which the
environment was built from, and the request-local data.
-/
def respond (parser : StatusParser) (cfg : Config) (wsgiCallable : WsgiCallable)
    (server : String × UInt16) (req : HttpRequest)
    : HttpResponseHeader × BodySender × HttpRequest × ReqLocal :=
  match execute parser wsgiCallable server (ReqLocal.init.setContext req.context) req with
  | (.ok (header, bytesIter), req, locals) => (header, .pyIterator bytesIter, req, locals)
  | (.error execError, req, locals) =>
      let (header, body) := handleWsgiExecErr cfg execError
      (header, .memory body, req, locals)

namespace BodySender

/-- One turn of the streaming loop: the chunk it sends, and what is left. The error of a
step is ignored, and the loop goes on with the next step.
-/
def turn : BodySender → Option Bytes × BodySender
  | .memory body => (some body, .spent)
  | .pyIterator bytesIter =>
      match bytesIter.next with
      | (.ok none, _) => (none, .dropped)
      | (.ok (some chunk), bytesIter) => (some chunk, .pyIterator bytesIter)
      | (.error _, bytesIter) => (none, .pyIterator bytesIter)
  | .spent => (none, .dropped)
  | .dropped => (none, .dropped)

/-- Whether the channel is still connected at this end. -/
def connected : BodySender → Bool
  | .dropped => false
  | _ => true

/-- The loop ends, and sends these chunks from here on. -/
inductive Streams : BodySender → List Bytes → Prop
  | dropped : Streams .dropped []
  | turn {sender chunks} (open_ : sender.connected) (later : Streams sender.turn.2 chunks)
    : Streams sender (sender.turn.1.toList ++ chunks)

/-- The loop sends the same chunks whenever it ends. Witness: induction on its turns. -/
theorem Streams.unique {sender : BodySender} {left right : List Bytes}
    (one : sender.Streams left) (other : sender.Streams right)
    : left = right := by
  induction one generalizing right with
  | dropped =>
      cases other with
      | dropped => rfl
      | turn open_ => cases open_
  | turn open_ _ ih =>
      cases other with
      | dropped => cases open_
      | turn _ later => rw [ih later]

/-- A body in memory is sent in one piece. -/
theorem streams_memory (body : Bytes) : Streams (.memory body) [body] :=
  .turn rfl (.turn rfl .dropped)

end BodySender
end Casket
