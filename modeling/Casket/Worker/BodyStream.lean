import Casket.Worker.Delivery

/-! A writer whose body is sent by anyone: chunks of any size arrive at any time, the sender
is dropped at any time, and the socket accepts any part of what it is given.
-/

namespace Casket

open Lib

/-- What became of a writer. -/
inductive BodyStage where
  | writing (writer : Writer)
  | done (resp : HttpResponse)
  | failed (error : HttpError)
  | panicked (panic : Panic)
  deriving DecidableEq, Repr

/-- A writer, the chunks sent so far, whether the sender is still there, and the bytes the
socket accepted.
-/
structure BodyStream where
  stage : BodyStage
  chunks : List Bytes
  connected : Bool
  accepted : Bytes
  deriving DecidableEq, Repr

inductive BodyOp where
  | chunk (chunk : Bytes)
  | drop
  | write (write : Except IoError Nat)

/-- What the sender does reaches the channel a writer holds. -/
def BodyStage.overBody (change : Receiver → Receiver) : BodyStage → BodyStage
  | .writing writer => .writing { writer with httpResp := writer.httpResp.overBody change }
  | stage => stage

namespace BodyStream

/-- A writer made for a response, of whose body some chunks were sent before. -/
def start (resp : HttpResponse) (chunks : List Bytes) (connected : Bool) : BodyStream where
  stage := .writing (.new { resp with respBody := some ⟨chunks, connected⟩ })
  chunks := chunks
  connected := connected
  accepted := []

def step (stream : BodyStream) : BodyOp → Option BodyStream
  | .chunk chunk =>
      if stream.connected then
        some
          { stream with
            stage := stream.stage.overBody fun body => ⟨body.queue ++ [chunk], true⟩
            chunks := stream.chunks ++ [chunk] }
      else
        none
  | .drop =>
      if stream.connected then
        some
          { stream with
            stage := stream.stage.overBody fun body => ⟨body.queue ++ [], false⟩
            connected := false }
      else
        none
  | .write write =>
      match stream.stage with
      | .writing writer =>
          let accepted := stream.accepted ++ writer.takeChunk.buffer.take (write.toOption.getD 0)
          match writer.writeTcpStream write with
          | .error panic => some { stream with stage := .panicked panic }
          | .ok (.error e) => some { stream with stage := .failed e }
          | .ok (.ok (.partialWrite writer)) =>
              some { stream with stage := .writing writer, accepted }
          | .ok (.ok (.done resp)) => some { stream with stage := .done resp, accepted }
      | .done _ | .failed _ | .panicked _ => none

/-- The socket accepts no more than it is given. -/
def Accepts (stream : BodyStream) : BodyOp → Prop
  | .write (.ok accepted) =>
      ∀ writer, stream.stage = .writing writer → accepted ≤ writer.takeChunk.buffer.length
  | .write (.error _) | .chunk _ | .drop => True

instance (stream : BodyStream) (op : BodyOp) : Decidable (stream.Accepts op) :=
  match op with
  | .write (.ok accepted) =>
      match same : stream.stage with
      | .writing writer =>
          decidable_of_iff (accepted ≤ writer.takeChunk.buffer.length)
            ⟨fun within _ found => BodyStage.writing.inj (same.symm.trans found) ▸ within,
              fun accepts => accepts writer same⟩
      | .done _ | .failed _ | .panicked _ => .isTrue fun _ found => nomatch same.symm.trans found
  | .write (.error _) | .chunk _ | .drop => .isTrue trivial

/-- What each stage says of the response. -/
def Exact (resp : HttpResponse) (stream : BodyStream) : Prop :=
  match stream.stage with
  | .writing writer =>
      stream.accepted ++ (writer.buffer ++ writer.httpResp.waiting.flatten)
        = resp.writeHeader ++ stream.chunks.flatten
  | .done done =>
      stream.connected = false
      ∧ stream.accepted = resp.writeHeader ++ stream.chunks.flatten
      ∧ done.respContentLength = some stream.chunks.flatten.length
  | .failed _ => True
  | .panicked _ => False

/-- What each stage knows of it. -/
def Carries (resp : HttpResponse) (stream : BodyStream) : Prop :=
  match stream.stage with
  | .writing writer => writer.Carries resp stream.connected stream.chunks stream.accepted
  | .done _ | .failed _ | .panicked _ => stream.Exact resp

variable {resp : HttpResponse} {stream after : BodyStream}

theorem Carries.exact (carries : stream.Carries resp) : stream.Exact resp := by
  obtain ⟨stage, chunks, connected, accepted⟩ := stream
  cases stage with
  | writing writer => exact Writer.Carries.flow carries
  | done done | failed e | panicked panic => exact carries

/-- A chunk arrives. -/
theorem Carries.chunk {chunk : Bytes} (carries : stream.Carries resp)
    (taken : stream.step (.chunk chunk) = some after)
    : after.Carries resp := by
  obtain ⟨stage, chunks, connected, accepted⟩ := stream
  simp only [step] at taken
  split at taken
  · next open_ =>
      obtain rfl := Option.some.inj taken
      obtain rfl : connected = true := open_
      cases stage with
      | writing writer => exact Writer.Carries.receive carries [chunk] true
      | done done => cases carries.1
      | failed e => trivial
      | panicked panic => exact carries.elim
  · cases taken

/-- The sender is dropped. -/
theorem Carries.drop (carries : stream.Carries resp) (taken : stream.step .drop = some after)
    : after.Carries resp := by
  obtain ⟨stage, chunks, connected, accepted⟩ := stream
  simp only [step] at taken
  split at taken
  · next open_ =>
      obtain rfl := Option.some.inj taken
      obtain rfl : connected = true := open_
      cases stage with
      | writing writer =>
          have later := Writer.Carries.receive carries [] false
          rw [List.append_nil] at later
          exact later
      | done done => cases carries.1
      | failed e => trivial
      | panicked panic => exact carries.elim
  · cases taken

/-- The worker writes. -/
theorem Carries.write {write : Except IoError Nat} (carries : stream.Carries resp)
    (accepts : stream.Accepts (.write write)) (taken : stream.step (.write write) = some after)
    : after.Carries resp := by
  obtain ⟨stage, chunks, connected, sent⟩ := stream
  cases stage with
  | writing writer =>
      cases write with
      | error e =>
          obtain rfl := Option.some.inj taken
          trivial
      | ok accepted =>
          have within : accepted ≤ writer.takeChunk.buffer.length := accepts writer rfl
          have took : writer.takeChunk.Carries resp connected chunks sent :=
            Writer.Carries.takeChunk carries
          rcases took.wrote within with ⟨later, wrote, more⟩ | ⟨wrote, ended, all⟩
          · simp only [step, Writer.writeTcpStream, wrote] at taken
            obtain rfl := Option.some.inj taken
            exact more
          · simp only [step, Writer.writeTcpStream, wrote] at taken
            obtain rfl := Option.some.inj taken
            exact ⟨ended, all, rfl⟩
  | done | failed | panicked => cases taken

end BodyStream

/-- At all times the bytes the socket accepted, the buffer and the channel are the head and
all chunks that were sent; the writer is done only when the sender is gone and everything was
accepted, and it knows the length of the body by then. Witness: the invariant of runs, with
one lemma for each step.
-/
theorem body_streamed (resp : HttpResponse) (chunks : List Bytes) (connected : Bool)
    {stream : BodyStream}
    (run : Reach BodyStream.step BodyStream.Accepts (.start resp chunks connected) stream)
    : stream.Exact resp := by
  have carries : stream.Carries resp := by
    refine run.invariant (fun stream => stream.Carries resp) (.new chunks connected) ?_
    intro before op after carries accepts taken
    cases op with
    | chunk chunk => exact carries.chunk taken
    | drop => exact carries.drop taken
    | write write => exact carries.write accepts taken
  exact carries.exact

/-- Two chunks, one of them empty, sent between the writes of a head of 105 bytes. -/
theorem body_streamed_two
    : ∃ stream : BodyStream,
        (BodyStream.start (rootRequest.intoHttpResponse ⟨200, "OK", []⟩ ⟨[], true⟩) []
            true).Exact (rootRequest.intoHttpResponse ⟨200, "OK", []⟩ ⟨[], true⟩)
        ∧ stream.Exact (rootRequest.intoHttpResponse ⟨200, "OK", []⟩ ⟨[], true⟩)
        ∧ stream.accepted.length = 107
        ∧ stream.chunks = [[], [104, 105]] := by
  let resp := rootRequest.intoHttpResponse ⟨200, "OK", []⟩ ⟨[], true⟩
  let ops : List BodyOp :=
    [.chunk [], .write (.ok 100), .chunk [104, 105], .write (.ok 0), .drop, .write (.ok 7)]
  have runs
      : (exec BodyStream.step BodyStream.Accepts (.start resp [] true) ops).map
          (fun stream => (stream.accepted.length, stream.chunks))
        = some (107, [[], [104, 105]]) := by
    decide +kernel
  obtain ⟨stream, done, same⟩ := Option.map_eq_some_iff.mp runs
  obtain ⟨length, chunks⟩ := Prod.mk.inj same
  exact ⟨stream, body_streamed resp [] true .start,
    body_streamed resp [] true (Reach.of_exec ops done), length, chunks⟩

end Casket
