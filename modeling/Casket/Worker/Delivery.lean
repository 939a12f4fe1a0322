import Casket.Http.Head
import Casket.Lib.Runs
import Casket.Pythonexec.Run
import Casket.Worker.ReaderRuns
import Casket.Worker.Writer

/-! One response on its way to the client. A python thread streams the body into the
channel while the worker takes the response up, writes it in pieces, and in the end reports
the stream to the server.
-/

namespace Casket

open Lib

-----------------------------------------------------------------------------------------
-- The run of one response
-----------------------------------------------------------------------------------------

/-- Where the response is in the worker. -/
inductive DeliveryStage where
  | queued (resp : HttpResponse)
  | writing (writer : Writer)
  | done (resp : HttpResponse)
  | reported (keepAlive : Bool)
  | failed (error : HttpError)
  | panicked (panic : Panic)
  deriving DecidableEq, Repr

/-- A response, what the thread has sent of its body, the head that was made of it, and the
bytes the socket accepted.
-/
structure Delivery where
  sender : BodySender
  stage : DeliveryStage
  yielded : List Bytes
  head : Bytes
  sent : Bytes

inductive DeliveryOp where
  | stream
  | takeUp
  | write (write : Except IoError Nat)
  | report (deregister : Except IoError Unit)

def DeliveryStage.overBody (change : Receiver → Receiver) : DeliveryStage → DeliveryStage
  | .queued resp => .queued (resp.overBody change)
  | .writing writer =>
      .writing { writer with httpResp := writer.httpResp.overBody change }
  | stage => stage

namespace Delivery

/-- The response a thread has just sent, with nothing streamed yet. -/
def start (parser : StatusParser) (cfg : Config) (wsgiCallable : WsgiCallable)
    (server : String × UInt16) (req : HttpRequest)
    : Delivery :=
  let (header, sender, req, _) := respond parser cfg wsgiCallable server req
  { sender
    stage := .queued (req.intoHttpResponse header ⟨[], true⟩)
    yielded := []
    head := []
    sent := [] }

/-- What one turn of the streaming loop does to the receiving end. -/
def received (sender : BodySender) (body : Receiver) : Receiver where
  queue := body.queue ++ sender.turn.1.toList
  connected := sender.turn.2.connected

def step (delivery : Delivery) : DeliveryOp → Option Delivery
  | .stream =>
      if delivery.sender.connected then
        some
          { delivery with
            sender := delivery.sender.turn.2
            stage := delivery.stage.overBody (received delivery.sender)
            yielded := delivery.yielded ++ delivery.sender.turn.1.toList }
      else
        none
  | .takeUp =>
      match delivery.stage with
      | .queued resp =>
          some { delivery with stage := .writing (.new resp), head := resp.writeHeader }
      | _ => none
  | .write write =>
      match delivery.stage with
      | .writing writer =>
          match writer.writeTcpStream write with
          | .error panic => some { delivery with stage := .panicked panic }
          | .ok (.error e) => some { delivery with stage := .failed e }
          | .ok (.ok state) =>
              let accepted := writer.takeChunk.buffer.take (write.toOption.getD 0)
              match state with
              | .partialWrite writer =>
                  some
                    { delivery with
                      stage := .writing writer
                      sent := delivery.sent ++ accepted }
              | .done resp =>
                  some { delivery with stage := .done resp, sent := delivery.sent ++ accepted }
      | _ => none
  | .report deregister =>
      match delivery.stage with
      | .done resp =>
          match deregister with
          | .ok () => some { delivery with stage := .reported resp.keepAlive }
          | .error _ => some { delivery with stage := .reported false }
      | _ => none

/-- The socket accepts no more than it is given. -/
def Accepts (delivery : Delivery) : DeliveryOp → Prop
  | .write (.ok accepted) =>
      ∀ writer, delivery.stage = .writing writer → accepted ≤ writer.takeChunk.buffer.length
  | _ => True

instance (delivery : Delivery) (op : DeliveryOp) : Decidable (delivery.Accepts op) :=
  match op with
  | .write (.ok accepted) =>
      match same : delivery.stage with
      | .writing writer =>
          decidable_of_iff (accepted ≤ writer.takeChunk.buffer.length)
            ⟨fun within _ found => DeliveryStage.writing.inj (same.symm.trans found) ▸ within,
              fun accepts => accepts writer same⟩
      | .queued _ | .done _ | .reported _ | .failed _ | .panicked _ =>
          .isTrue fun _ found => nomatch same.symm.trans found
  | .write (.error _) | .stream | .takeUp | .report _ => .isTrue trivial

end Delivery

-----------------------------------------------------------------------------------------
-- Where the bytes of a response are
-----------------------------------------------------------------------------------------

/-- The chunks in the body channel. -/
def HttpResponse.waiting (self : HttpResponse) : List Bytes :=
  (self.respBody.map Receiver.queue).getD []

/-- The head says nothing of the body. -/
@[simp]
theorem HttpResponse.writeHeader_respBody (resp : HttpResponse) (body : Option Receiver)
    : ({ resp with respBody := body } : HttpResponse).writeHeader = resp.writeHeader := by
  unfold HttpResponse.writeHeader
  rfl

/-- What a writer knows of the response it was made for: the bytes the socket accepted, its
buffer and the channel are the head and all chunks sent so far.
-/
structure Writer.Carries (resp : HttpResponse) (connected : Bool) (yielded : List Bytes)
    (sent : Bytes) (writer : Writer)
    : Prop where
  response : ∃ body, writer.httpResp = { resp with respBody := body }
  disconnected : writer.httpResp.respBody = none → connected = false
  channel : ∀ body, writer.httpResp.respBody = some body → body.connected = connected
  flow
    : sent ++ (writer.buffer ++ writer.httpResp.waiting.flatten)
      = resp.writeHeader ++ yielded.flatten
  headerSize : writer.headerSize = resp.writeHeader.length
  bytesWritten : writer.bytesWritten = sent.length

namespace Writer.Carries

variable {resp : HttpResponse} {connected : Bool} {yielded : List Bytes} {sent : Bytes}
variable {writer : Writer}

/-- A new writer carries the head, and the chunks sent before it was made. -/
theorem new (yielded : List Bytes) (connected : Bool)
    : (Writer.new { resp with respBody := some ⟨yielded, connected⟩ }).Carries resp connected
        yielded [] where
  response := ⟨_, rfl⟩
  disconnected none_ := nomatch none_
  channel body found := by
    obtain rfl := Option.some.inj found
    rfl
  flow := by simp [Writer.new, HttpResponse.waiting]
  headerSize := by simp [Writer.new]
  bytesWritten := rfl

/-- Taking a chunk moves it from the channel to the buffer. -/
theorem takeChunk (carries : writer.Carries resp connected yielded sent)
    : writer.takeChunk.Carries resp connected yielded sent := by
  obtain ⟨body, response⟩ := carries.response
  unfold Writer.takeChunk
  split
  · exact carries
  · next body found =>
      split
      · next bodyPart rest took =>
          have same := carries.channel body found
          unfold Receiver.tryRecv at took
          split at took
          · next chunk others queue =>
              simp only [Except.ok.injEq, Prod.mk.injEq] at took
              obtain ⟨rfl, rfl⟩ := took
              refine ⟨⟨some ⟨others, body.connected⟩, by rw [response]⟩, fun none_ => ?_, ?_, ?_,
                carries.headerSize, carries.bytesWritten⟩
              · cases none_
              · intro later found
                obtain rfl := Option.some.inj found
                exact same
              · have flow := carries.flow
                simp only [HttpResponse.waiting, found, queue, Option.map_some,
                  Option.getD_some, List.flatten_cons] at flow
                simp only [HttpResponse.waiting, Option.map_some, Option.getD_some,
                  List.append_assoc]
                exact flow
          · split at took <;> cases took
      · exact carries
      · next gone =>
          have same := carries.channel body found
          unfold Receiver.tryRecv at gone
          split at gone
          · cases gone
          · next drained =>
              split at gone
              · cases gone
              · next disconnected =>
                  refine ⟨⟨none, by rw [response]⟩, fun _ => ?_, fun _ found => ?_, ?_,
                    carries.headerSize, carries.bytesWritten⟩
                  · rw [← same]
                    simpa using disconnected
                  · cases found
                  · have flow := carries.flow
                    simp only [HttpResponse.waiting, found, drained, Option.map_some,
                      Option.getD_some] at flow
                    exact flow

/-- A write moves bytes from the buffer to the socket. It is the last one when none are left
and the sender is gone, and then the length of the body is what was sent behind the head.
-/
theorem wrote (carries : writer.Carries resp connected yielded sent) {accepted : Nat}
    (within : accepted ≤ writer.buffer.length)
    : (∃ after,
        writer.wrote accepted = .ok (.partialWrite after)
        ∧ after.Carries resp connected yielded (sent ++ writer.buffer.take accepted))
      ∨ writer.wrote accepted
          = .ok
              (.done
                { resp with
                  respBody := none
                  respContentLength := some yielded.flatten.length })
        ∧ connected = false
        ∧ sent ++ writer.buffer.take accepted = resp.writeHeader ++ yielded.flatten := by
  obtain ⟨body, response⟩ := carries.response
  have enough : ¬ writer.buffer.length < accepted := Nat.not_lt.mpr within
  have front : (writer.buffer.take accepted).length = accepted := by
    rw [List.length_take, Nat.min_eq_left within]
  have flow
      : sent ++ writer.buffer.take accepted
          ++ (writer.buffer.drop accepted ++ writer.httpResp.waiting.flatten)
        = resp.writeHeader ++ yielded.flatten := by
    rw [← carries.flow, List.append_assoc, ← List.append_assoc (writer.buffer.take accepted),
      List.take_append_drop]
  simp only [Writer.wrote, enough, if_false, take_slide_written]
  by_cases last : (writer.buffer.drop accepted).isEmpty && writer.httpResp.respBody.isNone
  · right
    obtain ⟨empty, none_⟩ := Bool.and_eq_true_iff.mp last
    have drained : writer.buffer.drop accepted = [] := List.isEmpty_iff.mp empty
    have gone : writer.httpResp.respBody = none := Option.isNone_iff_eq_none.mp none_
    have all : sent ++ writer.buffer.take accepted = resp.writeHeader ++ yielded.flatten := by
      rw [← flow, drained, HttpResponse.waiting, gone]
      simp
    have total : sent.length + accepted = resp.writeHeader.length + yielded.flatten.length := by
      rw [← List.length_append, ← all, List.length_append, front]
    have covers : ¬ writer.bytesWritten + accepted < writer.headerSize := by
      rw [carries.bytesWritten, carries.headerSize]
      omega
    have size : writer.bytesWritten + accepted - writer.headerSize = yielded.flatten.length := by
      rw [carries.bytesWritten, carries.headerSize]
      omega
    refine ⟨?_, carries.disconnected gone, all⟩
    rw [if_pos last, if_neg covers, size]
    rw [response] at gone ⊢
    simp only at gone
    subst gone
    rfl
  · left
    refine ⟨_, if_neg last, ⟨⟨body, response⟩, carries.disconnected, carries.channel, flow,
      carries.headerSize, ?_⟩⟩
    rw [List.length_append, front, ← carries.bytesWritten]

/-- Chunks that are sent are in the channel, while there is one. -/
theorem receive (carries : writer.Carries resp true yielded sent) (chunks : List Bytes)
    (still : Bool)
    : ({ writer with
          httpResp := writer.httpResp.overBody fun body => ⟨body.queue ++ chunks, still⟩ }
        : Writer).Carries resp still (yielded ++ chunks) sent := by
  obtain ⟨body, response⟩ := carries.response
  rcases found : writer.httpResp.respBody with - | body
  · exact nomatch carries.disconnected found
  · refine ⟨⟨_, by rw [response]; rfl⟩, ?_, ?_, ?_, carries.headerSize, carries.bytesWritten⟩
    · intro none_
      simp [HttpResponse.overBody, found] at none_
    · intro later same
      simp only [HttpResponse.overBody, found, Option.map_some, Option.some.injEq] at same
      rw [← same]
    · have flow := carries.flow
      simp only [HttpResponse.waiting, found, Option.map_some, Option.getD_some] at flow
      simp only [HttpResponse.waiting, HttpResponse.overBody, found, Option.map_some,
        Option.getD_some, List.flatten_append]
      rw [← List.append_assoc writer.buffer, ← List.append_assoc, flow, List.append_assoc]

/-- So is what a turn of the streaming loop sends. -/
theorem stream (carries : writer.Carries resp true yielded sent) (sender : BodySender)
    : ({ writer with httpResp := writer.httpResp.overBody (Delivery.received sender) }
        : Writer).Carries resp sender.turn.2.connected
        (yielded ++ sender.turn.1.toList) sent :=
  carries.receive sender.turn.1.toList sender.turn.2.connected

end Writer.Carries

-----------------------------------------------------------------------------------------
-- Runs of a response
-----------------------------------------------------------------------------------------

namespace Delivery

/-- All of a response is with the client: its head, and the chunks of a body that ended. -/
structure Finished (resp : HttpResponse) (delivery : Delivery) : Prop where
  head : delivery.head = resp.writeHeader
  sent : delivery.sent = resp.writeHeader ++ delivery.yielded.flatten
  ended : delivery.sender.connected = false

/-- What each stage knows of the response the thread sent. -/
def StageHolds (resp : HttpResponse) (delivery : Delivery) : Prop :=
  match delivery.stage with
  | .queued queued =>
      queued
        = { resp with respBody := some ⟨delivery.yielded, delivery.sender.connected⟩ }
      ∧ delivery.sent = []
  | .writing writer =>
      writer.Carries resp delivery.sender.connected delivery.yielded delivery.sent
      ∧ delivery.head = resp.writeHeader
  | .done done => done.keepAlive = resp.keepAlive ∧ delivery.Finished resp
  | .reported keepAlive =>
      (keepAlive = true → resp.keepAlive = true) ∧ delivery.Finished resp
  | .failed _ => True
  | .panicked _ => False

/-- The invariant of a response that a thread sent with some streaming ahead of it. -/
structure Flows (resp : HttpResponse) (sender : BodySender) (delivery : Delivery) : Prop where
  stage : delivery.StageHolds resp
  streamed
    : ∀ chunks,
        delivery.sender.Streams chunks → sender.Streams (delivery.yielded ++ chunks)

variable {resp : HttpResponse} {sender : BodySender} {delivery after : Delivery}

/-- A turn of the streaming loop. -/
theorem Flows.stream (flows : delivery.Flows resp sender)
    (taken : delivery.step .stream = some after)
    : after.Flows resp sender := by
  obtain ⟨stage, streamed⟩ := flows
  obtain ⟨source, stage_, yielded, head, sent⟩ := delivery
  simp only [step] at taken
  split at taken
  · next open_ =>
      obtain rfl := Option.some.inj taken
      refine ⟨?_, fun chunks later => ?_⟩
      · cases stage_ with
        | queued queued =>
            obtain ⟨whole, none_⟩ := stage
            simp only at whole
            subst whole
            exact ⟨rfl, none_⟩
        | writing writer =>
            obtain ⟨carries, same⟩ := stage
            rw [open_] at carries
            exact ⟨carries.stream source, same⟩
        | done done => exact absurd open_ (by simp [stage.2.ended])
        | reported keepAlive => exact absurd open_ (by simp [stage.2.ended])
        | failed error => trivial
        | panicked panic => exact stage.elim
      · rw [List.append_assoc]
        exact streamed _ (.turn open_ later)
  · cases taken

/-- The worker takes the response up. -/
theorem Flows.takeUp (flows : delivery.Flows resp sender)
    (taken : delivery.step .takeUp = some after)
    : after.Flows resp sender := by
  obtain ⟨stage, streamed⟩ := flows
  obtain ⟨source, stage_, yielded, head, sent⟩ := delivery
  cases stage_ with
  | queued queued =>
      obtain ⟨whole, none_⟩ := stage
      simp only at whole none_
      subst whole none_
      obtain rfl := Option.some.inj taken
      exact ⟨⟨.new yielded source.connected, by simp⟩, streamed⟩
  | writing | done | reported | failed | panicked => cases taken

/-- The worker writes some of the response. -/
theorem Flows.write (flows : delivery.Flows resp sender) {write : Except IoError Nat}
    (accepts : delivery.Accepts (.write write))
    (taken : delivery.step (.write write) = some after)
    : after.Flows resp sender := by
  obtain ⟨stage, streamed⟩ := flows
  obtain ⟨source, stage_, yielded, head, sent⟩ := delivery
  cases stage_ with
  | writing writer =>
      obtain ⟨carries, same⟩ := stage
      rcases write with e | accepted
      · obtain rfl := Option.some.inj taken
        exact ⟨trivial, streamed⟩
      · have within : accepted ≤ writer.takeChunk.buffer.length := accepts writer rfl
        rcases carries.takeChunk.wrote within with ⟨later, wrote, more⟩ | ⟨wrote, ended, all⟩
        · simp only [step, Writer.writeTcpStream, wrote] at taken
          obtain rfl := Option.some.inj taken
          exact ⟨⟨more, same⟩, streamed⟩
        · simp only [step, Writer.writeTcpStream, wrote] at taken
          obtain rfl := Option.some.inj taken
          exact ⟨⟨rfl, same, all, ended⟩, streamed⟩
  | queued | done | reported | failed | panicked => cases taken

/-- The worker reports the stream. -/
theorem Flows.report (flows : delivery.Flows resp sender) {deregister : Except IoError Unit}
    (taken : delivery.step (.report deregister) = some after)
    : after.Flows resp sender := by
  obtain ⟨stage, streamed⟩ := flows
  obtain ⟨source, stage_, yielded, head, sent⟩ := delivery
  cases stage_ with
  | done done =>
      obtain ⟨same, finished⟩ := stage
      rcases deregister with e | ⟨⟩
      · obtain rfl := Option.some.inj taken
        exact ⟨⟨fun kept => (nomatch kept), ⟨finished.head, finished.sent, finished.ended⟩⟩,
          streamed⟩
      · obtain rfl := Option.some.inj taken
        exact ⟨⟨fun kept => same ▸ kept, ⟨finished.head, finished.sent, finished.ended⟩⟩,
          streamed⟩
  | queued | writing | reported | failed | panicked => cases taken

/-- Every run of a response keeps its bytes in order. Witness: the invariant of runs, with
one lemma for each step.
-/
theorem Flows.reached {first : Delivery} (initial : first.Flows resp sender)
    (run : Reach step Accepts first delivery)
    : delivery.Flows resp sender := by
  refine run.invariant (fun delivery => delivery.Flows resp sender) initial ?_
  intro before op after flows accepts taken
  cases op with
  | stream => exact flows.stream taken
  | takeUp => exact flows.takeUp taken
  | write write => exact flows.write accepts taken
  | report deregister => exact flows.report taken

end Delivery

-----------------------------------------------------------------------------------------
-- Kept connections
-----------------------------------------------------------------------------------------

/-- The reasons of headers that were put do not break a line. -/
theorem ReqLocal.start_oneLine {parser : StatusParser} {calls : List StartCall}
    {self : ReqLocal}
    (before : ∀ header, self.responseHeader = some header → 13 ∉ utf8 header.reason)
    : ∀ header,
        (self.start parser calls).responseHeader = some header → 13 ∉ utf8 header.reason := by
  induction calls generalizing self with
  | nil => exact before
  | cons call rest ih =>
      rw [start, List.foldl_cons]
      refine ih ?_
      rcases started : startResponse parser call with e | header
      · exact before
      · intro last same
        obtain rfl := Option.some.inj same
        unfold startResponse at started
        split at started
        · cases started
        · next code reason parsed =>
            split at started
            · cases started
            · obtain rfl := Except.ok.inj started
              unfold parseStatus at parsed
              split at parsed
              · cases parsed
              · cases parsed
              · cases parsed
              · next found =>
                  simp only [Except.ok.injEq, Prod.mk.injEq] at parsed
                  obtain ⟨rfl, rfl⟩ := parsed
                  exact parser.oneLine found

/-- A header that `execute` returns has a reason that does not break its line. -/
theorem execute_oneLine {parser : StatusParser} {wsgiCallable : WsgiCallable}
    {server : String × UInt16} {context : Context} {req : HttpRequest}
    {header : HttpResponseHeader} {bytesIter : BytesIter}
    (executed
      : (execute parser wsgiCallable server (ReqLocal.init.setContext context) req).1
        = .ok (header, bytesIter))
    : 13 ∉ utf8 header.reason := by
  have put :=
    @ReqLocal.start_oneLine parser (wsgiCallable (buildEnviron server req).1).starts
      (ReqLocal.init.setContext context) (fun _ none_ => nomatch none_)
  simp only [execute] at executed
  split at executed
  · cases executed
  · split at executed
    · cases executed
    · next header locals took =>
        split at executed
        · cases executed
        · simp only [Except.ok.injEq, Prod.mk.injEq] at executed
          obtain ⟨rfl, -⟩ := executed
          exact put header (congrArg Prod.fst took)

/-- What the application does makes the head give the length of the body: the headers it
started the response with bring no empty line and give one length, that of all chunks its
iterator sends before it ends; or it raised before its first chunk, and the text of the
exception, if it is sent, brings neither an empty line nor a length of its own.
-/
def SelfDelimiting (parser : StatusParser) (cfg : Config) (wsgiCallable : WsgiCallable)
    (server : String × UInt16) (req : HttpRequest)
    : Prop :=
  match (execute parser wsgiCallable server (ReqLocal.init.setContext req.context) req).1 with
  | .ok (header, bytesIter) =>
      ∃ chunks,
        (BodySender.pyIterator bytesIter).Streams chunks
        ∧ headerLengths header.headers = some [some chunks.flatten.length]
  | .error execError =>
      cfg.bodyStacktrace = true → headerLengths [("X-Error", execError.value)] = some []

/-- The response of a request whose application raised gives the length of its body, unless
the text of the exception gives another or ends the head.
-/
theorem headerLengths_execErr (cfg : Config) (err : ExecError)
    : headerLengths (handleWsgiExecErr cfg err).1.headers
          = some [some (handleWsgiExecErr cfg err).2.length]
      ↔ (cfg.bodyStacktrace = true → headerLengths [("X-Error", err.value)] = some []) := by
  have type
      : headerLengths [("Content-Type", "text/plain; charset=UTF-8")] = some [] := by
    decide +kernel
  by_cases sent : cfg.bodyStacktrace = true
  · simp only [handleWsgiExecErr, sent, if_true, handlePythonExcBodyStacktrace,
      forall_true_left]
    rw [headerLengths_cons, headerLengths_number, headerLengths_cons, type]
    simp
  · simp only [handleWsgiExecErr, sent, if_false, handlePythonExcEmpty, false_implies, iff_true,
      Bool.false_eq_true]
    exact headerLengths_number 0

namespace Delivery

variable {parser : StatusParser} {cfg : Config} {wsgiCallable : WsgiCallable}
variable {server : String × UInt16} {req : HttpRequest}

/-- The body is streamed by what `respond` gave, under a head with its headers. -/
theorem start_flows {header : HttpResponseHeader} {sender : BodySender} {left : HttpRequest}
    {locals : ReqLocal}
    (responds : respond parser cfg wsgiCallable server req = (header, sender, left, locals))
    (open_ : sender.connected = true)
    : (start parser cfg wsgiCallable server req).Flows
        (left.intoHttpResponse header ⟨[], true⟩) sender := by
  simp only [start, responds]
  refine ⟨⟨?_, rfl⟩, fun chunks streams => streams⟩
  simp only [open_]
  rfl

/-- The environment takes the body of a request, and leaves its context and its wish to keep
the connection.
-/
theorem respond_left (parser : StatusParser) (cfg : Config) (wsgiCallable : WsgiCallable)
    (server : String × UInt16) (req : HttpRequest)
    : (respond parser cfg wsgiCallable server req).2.2.1 = (buildEnviron server req).2 := by
  have same (locals : ReqLocal)
      : (execute parser wsgiCallable server locals req).2.1 = (buildEnviron server req).2 := by
    simp only [execute]
    split
    · rfl
    · split
      · rfl
      · split <;> rfl
  have left := same (ReqLocal.init.setContext req.context)
  unfold respond
  split
  · next executed => rw [executed] at left; exact left
  · next executed => rw [executed] at left; exact left

/-- A reported response that keeps the stream was sent whole: a head, whose length is that
of its headers, and all chunks of a body that ended.
-/
theorem Flows.kept {header : HttpResponseHeader} {left : HttpRequest}
    {sender : BodySender} {body : Receiver} {delivery : Delivery}
    (flows : delivery.Flows (left.intoHttpResponse header body) sender)
    (kept : delivery.stage = .reported true) (reason : 13 ∉ utf8 header.reason)
    (traceId : 13 ∉ utf8 left.context.traceId)
    : sender.Streams delivery.yielded
      ∧ delivery.sent = delivery.head ++ delivery.yielded.flatten
      ∧ ∀ length,
          Delimits delivery.head length
          ↔ headerLengths header.headers = some [some length] := by
  obtain ⟨stage, streamed⟩ := flows
  rw [StageHolds, kept] at stage
  obtain ⟨-, finished⟩ := stage
  refine ⟨?_, finished.head ▸ finished.sent, ?_⟩
  · have ended := finished.ended
    rcases now : delivery.sender with body | bytesIter | - | -
    · simp [now, BodySender.connected] at ended
    · simp [now, BodySender.connected] at ended
    · simp [now, BodySender.connected] at ended
    · rw [← List.append_nil delivery.yielded]
      exact streamed [] (now ▸ .dropped)
  · rw [finished.head]
    exact delimits_writeHeader_iff reason traceId

end Delivery

/-- A response after which the stream is reported to be kept gives the length of its body in
its head, once and rightly, exactly when what the application did makes it. Witness: every
byte of the head and of the chunks was sent, and a head ends and gives a length as its
headers let it.
-/
theorem kept_delimits_iff {crates : Crates} {parser : StatusParser} {cfg : Config}
    {wsgiCallable : WsgiCallable} {server : String × UInt16} {req : HttpRequest}
    (delivered : req.Delivered crates) {delivery : Delivery}
    (run
      : Reach Delivery.step Delivery.Accepts (.start parser cfg wsgiCallable server req)
          delivery)
    (kept : delivery.stage = .reported true)
    : delivery.head <+: delivery.sent
      ∧ (Delimits delivery.head (delivery.sent.length - delivery.head.length)
        ↔ SelfDelimiting parser cfg wsgiCallable server req) := by
  have left := Delivery.respond_left parser cfg wsgiCallable server req
  have traceId : 13 ∉ utf8 (buildEnviron server req).2.context.traceId := by
    intro mem
    exact absurd (delivered.traceId _ (carriageReturn_of_mem_utf8 mem)) (by decide +kernel)
  rcases executed
      : execute parser wsgiCallable server (ReqLocal.init.setContext req.context) req
    with ⟨e | ⟨header, bytesIter⟩, request, locals⟩
  · have responds
        : respond parser cfg wsgiCallable server req
          = ((handleWsgiExecErr cfg e).1, .memory (handleWsgiExecErr cfg e).2, request,
            locals) := by
      simp [respond, executed]
    rw [responds] at left
    simp only at left
    have reason : 13 ∉ utf8 (handleWsgiExecErr cfg e).1.reason := by
      have internal : 13 ∉ utf8 "Internal Server Error" := by decide +kernel
      unfold handleWsgiExecErr
      split <;> exact internal
    obtain ⟨streams, sent, lengths⟩ :=
      ((Delivery.start_flows responds rfl).reached run).kept kept reason (left ▸ traceId)
    have body := streams.unique (BodySender.streams_memory _)
    refine ⟨sent ▸ List.prefix_append .., ?_⟩
    simp only [lengths, sent, List.length_append, Nat.add_sub_cancel_left, body,
      SelfDelimiting, executed, List.flatten_cons, List.flatten_nil, List.append_nil]
    exact headerLengths_execErr cfg e
  · have responds
        : respond parser cfg wsgiCallable server req
          = (header, .pyIterator bytesIter, request, locals) := by
      simp [respond, executed]
    rw [responds] at left
    simp only at left
    have reason : 13 ∉ utf8 header.reason := execute_oneLine (congrArg Prod.fst executed)
    obtain ⟨streams, sent, lengths⟩ :=
      ((Delivery.start_flows responds rfl).reached run).kept kept reason (left ▸ traceId)
    refine ⟨sent ▸ List.prefix_append .., ?_⟩
    simp only [lengths, sent, List.length_append, Nat.add_sub_cancel_left,
      SelfDelimiting, executed]
    constructor
    · exact fun same => ⟨delivery.yielded, streams, same⟩
    · rintro ⟨chunks, all, same⟩
      rw [streams.unique all]
      exact same

/-- A status parser that knows one status. -/
def StatusParser.ok : StatusParser where
  parse line :=
    if line = utf8 "HTTP/1.1 200 OK\r\n" then some (some 200, some "OK") else none
  oneLine := by
    intro line code reason parsed
    split at parsed
    · simp only [Option.some.injEq, Prod.mk.injEq] at parsed
      obtain ⟨-, rfl⟩ := parsed
      decide +kernel
    · cases parsed

/-- An application that starts a response with some headers and yields one chunk. -/
def yields (headers : List HeaderItem) (chunk : Bytes) : WsgiCallable := fun _ =>
  { starts := [{ status := "200 OK", headers }]
    result :=
      .ok fun
        | 0 => { starts := [], result := .chunk chunk }
        | _ + 1 => { starts := [], result := .stop } }

/-- Such an application is self-delimiting when its headers are put and give one length, that
of the chunk.
-/
theorem selfDelimiting_yields {parser : StatusParser} {items : List HeaderItem}
    {header : HttpResponseHeader} (started : startResponse parser ⟨"200 OK", items⟩ = .ok header)
    {chunk : Bytes} (lengths : headerLengths header.headers = some [some chunk.length])
    (cfg : Config) (server : String × UInt16) (req : HttpRequest)
    : SelfDelimiting parser cfg (yields items chunk) server req := by
  have executed
      : ∃ bytesIter,
          (execute parser (yields items chunk) server (ReqLocal.init.setContext req.context)
              req).1
            = .ok (header, bytesIter)
          ∧ (BodySender.pyIterator bytesIter).Streams [chunk] := by
    simp only [execute, yields, ReqLocal.start, List.foldl_cons, List.foldl_nil, started,
      ReqLocal.putResponseHeader, ReqLocal.takeResponseHeader, BytesIter.new, nextBodyChunk]
    exact ⟨_, rfl, .turn rfl (.turn rfl .dropped)⟩
  obtain ⟨bytesIter, executed, streams⟩ := executed
  rw [SelfDelimiting, executed]
  exact ⟨[chunk], streams, by simpa using lengths⟩

/-- A request for the root of the host `a`, as a reader delivers it. -/
def rootRequest : HttpRequest where
  method := "GET"
  url := { href := "http://a/", path := "/", query := none }
  headers := [("Host", "a"), ("Content-Length", "0")]
  context := .new (ReadCall.of []).rng
  keepAlive := true
  contentType := none
  contentLength := 0
  body := some []

theorem rootRequest_delivered : rootRequest.Delivered (.onHead "0") := by
  have fits : Reader.new.Fits (.of (headOf "0")) := by
    intro data read
    obtain rfl := Except.ok.inj read
    decide +kernel
  exact ⟨.new, .of (headOf "0"), .start, fits, by decide +kernel⟩

/-- A length that is given and right. -/
theorem kept_delimits_iff_given
    : ∃ delivery : Delivery,
        delivery.stage = .reported true
        ∧ delivery.sent.length = delivery.head.length + 2
        ∧ Delimits delivery.head (delivery.sent.length - delivery.head.length) := by
  let start : Delivery :=
    .start .ok (.default "h") (yields [.pair "Content-Length" "2"] [104, 105]) ("h", 80)
      rootRequest
  let ops : List DeliveryOp :=
    [.stream, .takeUp, .write (.ok 100), .stream, .write (.ok 26), .report (.ok ())]
  have runs
      : (exec Delivery.step Delivery.Accepts start ops).map
          (fun delivery => (delivery.stage, delivery.head.length, delivery.sent.length))
        = some (.reported true, 124, 126) := by
    decide +kernel
  obtain ⟨delivery, done, same⟩ := Option.map_eq_some_iff.mp runs
  simp only [Prod.mk.injEq] at same
  have delimits
      : SelfDelimiting .ok (.default "h") (yields [.pair "Content-Length" "2"] [104, 105])
          ("h", 80) rootRequest :=
    @selfDelimiting_yields .ok _ ⟨200, "OK", [("Content-Length", "2")]⟩ (by decide +kernel) _
      (by decide +kernel) ..
  refine ⟨delivery, same.1, by rw [same.2.1, same.2.2], ?_⟩
  exact (kept_delimits_iff rootRequest_delivered (Reach.of_exec ops done) same.1).2.mpr delimits

/-- A response that gives no length leaves its stream open all the same. -/
theorem kept_without_length
    : ¬ ∀ (crates : Crates) (parser : StatusParser) (cfg : Config)
          (wsgiCallable : WsgiCallable) (server : String × UInt16) (req : HttpRequest)
          (delivery : Delivery),
        req.Delivered crates →
        Reach Delivery.step Delivery.Accepts (.start parser cfg wsgiCallable server req)
          delivery →
        delivery.stage = .reported true →
        Delimits delivery.head (delivery.sent.length - delivery.head.length) := by
  let start : Delivery := .start .ok (.default "h") (yields [] [104, 105]) ("h", 80) rootRequest
  let ops : List DeliveryOp :=
    [.stream, .takeUp, .write (.ok 100), .stream, .write (.ok 7), .report (.ok ())]
  have runs
      : (exec Delivery.step Delivery.Accepts start ops).map
          (fun delivery => (delivery.stage, contentLengths (blockLines delivery.head)))
        = some (.reported true, []) := by
    decide +kernel
  obtain ⟨delivery, done, same⟩ := Option.map_eq_some_iff.mp runs
  simp only [Prod.mk.injEq] at same
  intro delimits
  have given :=
    delimits (.onHead "0") .ok (.default "h") (yields [] [104, 105]) ("h", 80) rootRequest
      delivery rootRequest_delivered (Reach.of_exec ops done) same.1
  exact nomatch same.2.symm.trans given.2

end Casket
