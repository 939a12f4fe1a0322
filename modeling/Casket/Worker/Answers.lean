import Casket.Worker.Bodies

/-! What each client has of its answer. At every stage of its stream this is known: nothing
while it is read or waits, then the front of a casket response or of the response that a
thread made for the request it sent.
-/

namespace Casket

open Lib

-----------------------------------------------------------------------------------------
-- Streams that are apart
-----------------------------------------------------------------------------------------

namespace WorkerLoop

variable {cfg : Config} {crates : Crates} {bincode : Bincode} {self after : WorkerLoop}
  {input : WorkerInput}

/-- No two streams have one token, all came, and one that was answered is not there. -/
structure Apart (state : WorkerLoop) : Prop where
  once : (state.holdings.map Prod.fst).Nodup
  came
    : ∀ tk ∈ state.holdings.map Prod.fst,
        tk ∈ (total WorkerEffect.came state.trace).map Prod.fst
  told
    : ∀ ending response,
        .answered ending response ∈ state.trace →
        response.token ∉ state.holdings.map Prod.fst

/-- Where nothing is lost and no token came twice, streams are apart. -/
theorem Conserves.apart (conserves : self.Conserves bincode)
    (distinct : ((total WorkerEffect.came self.trace).map Prod.fst).Nodup)
    : self.Apart := by
  have all := congrArg (Multiset.map Prod.fst) conserves.streams
  rw [Multiset.map_add, Multiset.map_add, ← conserves.answers] at all
  have once := distinct
  rw [all] at once
  obtain ⟨held, -, others⟩ := Multiset.nodup_add.mp once
  refine ⟨held, ?_, ?_⟩
  · intro tk member
    rw [all]
    exact Multiset.mem_add.mpr (.inl member)
  · intro ending response answered member
    have told : response.token ∈ total WorkerEffect.told self.trace :=
      mem_total answered (Multiset.mem_singleton_self _)
    exact Multiset.disjoint_left.mp others member (Multiset.mem_add.mpr (.inl told))

theorem apart_reach {guard : WorkerLoop → WorkerInput → Prop} {state : WorkerLoop}
    (run : Reach (step cfg crates bincode) guard (.new cfg) state)
    (runs : state.phase.running = true)
    (distinct : ((total WorkerEffect.came state.trace).map Prod.fst).Nodup)
    : state.Apart :=
  (conserved_reach run runs).2.apart distinct

/-- The stages of the streams in the maps. -/
theorem mem_staged_reading {tk : Token} {tcpStream : TcpStream} {reader : Reader}
    (found : self.worker.serverReadingStreams.lookup tk = some (tcpStream, reader))
    : (tk, .unread) ∈ self.staged := by
  rw [staged, contents_of_lookup (fun _ => Stage.unread) found]
  simp only [Multiset.mem_add, Multiset.mem_singleton, true_or, or_true]

theorem mem_staged_writing {tk : Token} {tcpStream : TcpStream} {writer : Writer}
    (found : self.worker.serverWritingStreams.lookup tk = some (tcpStream, writer))
    : (tk, .writing writer) ∈ self.staged := by
  rw [staged, contents_of_lookup (fun value => Stage.writing value.2) found]
  simp only [Multiset.mem_add, Multiset.mem_singleton, true_or, or_true]

theorem mem_staged_casket {tk : Token} {tcpStream : TcpStream} {casketResp : CasketResponse}
    (found : self.worker.serverCasketResponses.lookup tk = some (tcpStream, casketResp))
    : (tk, .refusing casketResp) ∈ self.staged := by
  rw [staged, contents_of_lookup (fun value => Stage.refusing value.2) found]
  simp only [Multiset.mem_add, Multiset.mem_singleton, true_or, or_true]

/-- A response of some kind is being sent on a stream. -/
def Sending (self : WorkerLoop) (tk : Token) : Prop :=
  (∃ writer, (tk, .writing writer) ∈ self.staged)
  ∨ ∃ casketResp, (tk, .refusing casketResp) ∈ self.staged

/-- What an event pushes is what its results grew by. -/
theorem pushed_pushResults {next : WorkerLoop} {more : List ActionResult}
    (collects : self.phase.collects = true) (phase : next.phase = self.phase.pushResults more)
    : self.pushed next = more := by
  rw [pushed, phase, WorkerPhase.workerResults_pushResults collects, List.drop_left]

/-- An event reads one request at most, of the stream it is for. -/
theorem Delivers.reads {tk : Token} {ev : Event}
    (delivers : self.Delivers cfg bincode tk ev after) (collects : self.phase.collects = true)
    : (self.pushed after).filterMap readDone? = []
      ∨ ∃ httpReq tcpStream,
          self.pushed after = [.ok (.serverReadDone tk httpReq tcpStream)]
          ∧ (tk, .unread) ∈ self.staged := by
  have still (same : after.phase.workerResults = self.phase.workerResults)
      : (self.pushed after).filterMap readDone? = [] := by
    rw [pushed, same, List.drop_length]
    rfl
  cases delivers with
  | ctrlC | unixStreamRead | unixStreamWrite | queuedRequests => exact .inl (still rfl)
  | requestReadTimeout | pythonCodeTimeout =>
      exact .inl (still (WorkerPhase.workerResults_pushTimeout _ _ _))
  | refused | newStreamFd => exact .inl (by rw [pushed_pushResults collects rfl]; rfl)
  | serverStreamRead found gives =>
      rw [pushed_pushResults collects rfl]
      cases gives with
      | done httpReq => exact .inr ⟨httpReq, _, rfl, mem_staged_reading found⟩
      | «continue» | streamEOF | failed => exact .inl rfl
  | pollPythonResponses took =>
      left
      rw [pushed_pushResults collects rfl, List.filterMap_eq_nil_iff]
      obtain ⟨delivered, rfl, -⟩ := PythonThreads.takeResponses_spec took
      intro res member
      rcases List.mem_append.mp member with start | response
      · obtain ⟨start, -, rfl⟩ := List.mem_map.mp start
        rfl
      · obtain ⟨response, -, rfl⟩ := List.mem_map.mp response
        rfl
  | serverStreamWrite _ gives =>
      rw [pushed_pushResults collects rfl]
      cases gives <;> exact .inl rfl
  | casketResponseWrite _ gives =>
      rw [pushed_pushResults collects rfl]
      cases gives <;> exact .inl rfl

/-- So does a step. -/
theorem step_reads {io : WorkerEventIo}
    (taken : self.step cfg crates bincode (.event io) = some after)
    : (self.pushed after).filterMap readDone? = []
      ∨ ∃ tk httpReq,
          (self.pushed after).filterMap readDone? = [(tk, httpReq)]
          ∧ (tk, .unread) ∈ self.staged
          ∧ after.phase.running = true
          ∧ (tk, .read httpReq) ∈ after.staged := by
  cases runs : after.phase.running with
  | false =>
      left
      have none_ : after.phase.workerResults = [] := by
        cases stands : after.phase with
        | returned | panicked => rfl
        | _ => rw [stands] at runs; cases runs
      rw [pushed, none_, List.drop_nil]
      rfl
  | true =>
      cases step_takes taken runs with
      | @event tk ev evs tmos results _ _ stands delivers =>
          have same : self.pushed after
              = { self with phase := .events evs tmos results }.pushed after := by
            rw [pushed, pushed, stands]
            rfl
          rw [same]
          rcases delivers.reads rfl with none_ | ⟨httpReq, tcpStream, one, unread⟩
          · exact .inl none_
          · refine .inr ⟨tk, httpReq, by rw [one]; rfl, ?_, rfl, ?_⟩
            · refine Multiset.mem_of_le ?_ unread
              rw [staged, staged, arriving, arriving, stands]
              refine add_le_add_left (add_le_add_left (add_le_add_left (add_le_add_left
                (add_le_add_left ?_ _) _) _) _) _
              exact Multiset.coe_le.mpr (((List.sublist_cons_self _ evs).filterMap _).map _).subperm
            · have there
                  : .ok (.serverReadDone tk httpReq tcpStream)
                    ∈ { self with phase := .events evs tmos results }.pushed after := by
                rw [one]
                exact List.mem_cons_self
              exact mem_staged_result (List.mem_of_mem_drop there) rfl

end WorkerLoop

-----------------------------------------------------------------------------------------
-- Writers over the channel of their body
-----------------------------------------------------------------------------------------

namespace Writer

/-- A writer whose channel is the one there is. -/
theorem overBody_self {writer : Writer} {body : Receiver}
    (same : ∀ other, writer.httpResp.respBody = some other → other = body)
    : writer.overBody body = writer := by
  obtain ⟨httpResp, buffer, headerSize, bytesWritten⟩ := writer
  rw [overBody]
  congr 1
  unfold HttpResponse.overBody
  cases found : httpResp.respBody with
  | none => rw [Option.map_none, ← found]
  | some other => rw [Option.map_some, ← same other found, ← found]

/-- A writer finds the channel as it was changed meanwhile. -/
theorem overBody_change (writer : Writer) (body : Receiver) (change : Receiver → Receiver)
    : writer.overBody (change body)
      = { writer.overBody body with
          httpResp := (writer.overBody body).httpResp.overBody change } := by
  simp only [overBody, HttpResponse.overBody, Option.map_map, Function.comp_def]

/-- A new writer over the channel of its body. -/
theorem overBody_new {httpResp : HttpResponse} (body : Receiver)
    (there : httpResp.respBody.isSome = true)
    : (Writer.new httpResp).overBody body = .new { httpResp with respBody := some body } := by
  obtain ⟨was, is⟩ := Option.isSome_iff_exists.mp there
  simp only [overBody, new, HttpResponse.overBody, is, Option.map_some,
    HttpResponse.writeHeader_respBody]

theorem overBody_respBody (writer : Writer) (body : Receiver)
    : (writer.overBody body).httpResp.respBody = writer.httpResp.respBody.map fun _ => body :=
  rfl

/-- Taking a chunk leaves the rest of the channel, or drops it. -/
theorem takeChunk_respBody {writer : Writer} {body other : Receiver}
    (found : (writer.overBody body).takeChunk.httpResp.respBody = some other)
    : writer.httpResp.respBody.isSome = true ∧ other = body.afterTry := by
  cases is : writer.httpResp.respBody with
  | none =>
      have none_ : (writer.overBody body).httpResp.respBody = none := by
        rw [overBody_respBody, is, Option.map_none]
      unfold takeChunk at found
      simp only [none_] at found
      cases found
  | some was =>
      refine ⟨rfl, ?_⟩
      have channel : (writer.overBody body).httpResp.respBody = some body := by
        rw [overBody_respBody, is, Option.map_some]
      unfold takeChunk at found
      unfold Receiver.afterTry
      simp only [channel] at found
      split at found
      · next took =>
          rw [took]
          exact (Option.some.inj found).symm
      · next took =>
          rw [took]
          exact (Option.some.inj (channel.symm.trans found)).symm
      · cases found

/-- A write leaves the channel. -/
theorem wrote_httpResp {writer after : Writer} {size : Nat}
    (wrote : writer.wrote size = .ok (.partialWrite after))
    : after.httpResp = writer.httpResp := by
  unfold Writer.wrote at wrote
  split at wrote
  · cases wrote
  · dsimp only at wrote
    split at wrote
    · split at wrote <;> cases wrote
    · cases wrote
      rfl

end Writer

/-- The thread of a body is gone. -/
theorem Writer.Carries.close {resp : HttpResponse} {connected : Bool} {yielded : List Bytes}
    {sent : Bytes} {writer : Writer} {body : Receiver}
    (carries : (writer.overBody body).Carries resp connected yielded sent)
    : (writer.overBody { body with connected := false }).Carries resp false yielded sent := by
  cases connected with
  | false =>
      have same : writer.overBody { body with connected := false } = writer.overBody body := by
        cases is : writer.httpResp.respBody with
        | none => simp only [Writer.overBody, HttpResponse.overBody, is, Option.map_none]
        | some other =>
            have gone := carries.channel body (by rw [overBody_respBody, is]; rfl)
            rw [← gone]
      rw [same]
      exact carries
  | true =>
      have closed := carries.receive [] false
      rw [List.append_nil] at closed
      rw [overBody_change writer body fun body => { body with connected := false }]
      simpa only [List.append_nil] using closed

-----------------------------------------------------------------------------------------
-- What is known at each stage
-----------------------------------------------------------------------------------------

/-- The casket responses that the worker writes. -/
def refusals : List Bytes := [http408Response, http503Response, http504Response]

namespace WorkerProcess

/-- A response as far as its body was sent. -/
def whole (parser : StatusParser) (cfg : Config) (self : WorkerProcess) (job : Job) : Bytes :=
  (job.response parser cfg cfg.server).writeHeader ++ (self.yielded job.key).flatten

/-- All of a response is with its client, and no more of its body will be sent. -/
def Done (parser : StatusParser) (cfg : Config) (self : WorkerProcess) (tk : Token) : Prop :=
  ∃ job ∈ self.answered,
    job.key = tk
    ∧ self.accepted tk = self.whole parser cfg job
    ∧ (self.bodies tk).connected = false

/-- What a client may have: the front of a casket response, or of the response to its request
as far as that was sent.
-/
inductive Owns (parser : StatusParser) (cfg : Config) (self : WorkerProcess) (tk : Token) : Prop
  | refused {text : Bytes} (is : text ∈ refusals) (front : self.accepted tk <+: text)
  | answered {job : Job} (known : job ∈ self.answered) (key : job.key = tk)
    (front : self.accepted tk <+: self.whole parser cfg job)

/-- Nothing was sent to the client, and its body waits in its channel, if there is one. -/
structure Untouched (process : WorkerProcess) (tk : Token) : Prop where
  accepted : process.accepted tk = []
  queue : (process.bodies tk).queue = process.yielded tk

/-- What is known of a stream at its stage. -/
def StageHolds (parser : StatusParser) (cfg : Config) (self : WorkerProcess) (tk : Token)
    : Stage → Prop
  | .unread => self.Untouched tk ∧ tk ∉ self.read.map Prod.fst
  | .read httpReq => self.Untouched tk ∧ (tk, httpReq) ∈ self.read
  | .pending => self.Untouched tk
  | .writing writer =>
      ∃ job ∈ self.answered,
        job.key = tk
        ∧ (writer.overBody (self.bodies tk)).Carries (job.response parser cfg cfg.server)
          (self.bodies tk).connected (self.yielded tk) (self.accepted tk)
  | .written _ => self.Done parser cfg tk
  | .refusing casketResp =>
      casketResp.response ∈ refusals
      ∧ self.accepted tk = casketResp.response.take casketResp.bytesSent
  | .refused _ => self.accepted tk ∈ refusals
  | .leaving => True

/-- What holds of every process, also of one whose loop has ended. -/
structure Kept (parser : StatusParser) (cfg : Config) (process : WorkerProcess) : Prop where
  once : (process.read.map Prod.fst).Nodup
  handed : ∀ thread ∈ process.threads, thread.handed ⊆ process.read
  answered : ∀ job ∈ process.answered, (job.key, job.req) ∈ process.read
  came
    : ∀ request ∈ process.read,
        request.1 ∈ (total WorkerEffect.came process.loop.trace).map Prod.fst
  untouched
    : ∀ tk,
        tk ∉ (total WorkerEffect.came process.loop.trace).map Prod.fst →
        process.Untouched tk
  owns : ∀ tk, process.Owns parser cfg tk
  done
    : ∀ response,
        .answered .doneWrite response ∈ process.loop.trace →
        process.Done parser cfg response.token
  refused
    : ∀ response,
        .answered .casketResponse response ∈ process.loop.trace →
        process.accepted response.token ∈ refusals

/-- What holds while the loop runs. -/
structure Live (parser : StatusParser) (cfg : Config) (process : WorkerProcess) : Prop where
  staged : ∀ item ∈ process.loop.staged, process.StageHolds parser cfg item.1 item.2
  queued : process.loop.worker.pythonThreads.queuedReqs ⊆ process.read
  responses
    : ∀ tk httpResp,
        (tk, httpResp) ∈ process.loop.pool.responses
            ∨ .ok (.serverNewResponse tk httpResp) ∈ process.loop.phase.workerResults →
          ∃ job ∈ process.answered,
            job.key = tk ∧ httpResp = job.response parser cfg cfg.server

variable {parser : StatusParser} {cfg : Config} {crates : Crates} {bincode : Bincode}
  {self after : WorkerProcess} {loop : WorkerLoop} {tk : Token}

theorem Live.stage (live : self.Live parser cfg) {stage : Stage}
    (here : (tk, stage) ∈ self.loop.staged)
    : self.StageHolds parser cfg tk stage :=
  live.staged _ here

/-- Nothing of a client or its body has changed, but that its sender may be gone. -/
structure SameAt (before after : WorkerProcess) (tk : Token) : Prop where
  accepted : after.accepted tk = before.accepted tk
  bodies
    : after.bodies tk = before.bodies tk
      ∨ after.bodies tk = { before.bodies tk with connected := false }
  yielded : after.yielded tk = before.yielded tk

namespace SameAt

theorem refl (self : WorkerProcess) (tk : Token) : self.SameAt self tk := ⟨rfl, .inl rfl, rfl⟩

variable (same : self.SameAt after tk) (answered : self.answered ⊆ after.answered)
include same

theorem untouched (holds : self.Untouched tk) : after.Untouched tk := by
  refine ⟨same.accepted.trans holds.accepted, ?_⟩
  rw [same.yielded, ← holds.queue]
  rcases same.bodies with is | is <;> rw [is]

/-- The response to a job of that client is as it was. -/
theorem whole {job : Job} (key : job.key = tk)
    : after.whole parser cfg job = self.whole parser cfg job := by
  subst key
  rw [WorkerProcess.whole, same.yielded]
  rfl

include answered

theorem done (holds : self.Done parser cfg tk) : after.Done parser cfg tk := by
  obtain ⟨job, known, key, accepted, gone⟩ := holds
  refine ⟨job, answered known, key, ?_, ?_⟩
  · rw [same.accepted, accepted, same.whole key]
  · rcases same.bodies with is | is
    · rw [is, gone]
    · rw [is]

theorem owns (holds : self.Owns parser cfg tk) : after.Owns parser cfg tk := by
  cases holds with
  | refused is front => exact .refused is (same.accepted ▸ front)
  | answered known key front =>
      refine .answered (answered known) key ?_
      rw [same.accepted, same.whole key]
      exact front

theorem stageHolds {stage : Stage} (read : self.read ⊆ after.read)
    (unread : stage = .unread → tk ∉ after.read.map Prod.fst)
    (holds : self.StageHolds parser cfg tk stage)
    : after.StageHolds parser cfg tk stage := by
  cases stage with
  | unread => exact ⟨same.untouched holds.1, unread rfl⟩
  | read => exact ⟨same.untouched holds.1, read holds.2⟩
  | pending => exact same.untouched holds
  | writing =>
      obtain ⟨job, known, key, carries⟩ := holds
      refine ⟨job, answered known, key, ?_⟩
      rw [same.yielded, same.accepted]
      rcases same.bodies with is | is
      · rw [is]
        exact carries
      · rw [is]
        exact carries.close
  | written => exact same.done answered holds
  | refusing => exact ⟨holds.1, same.accepted.trans holds.2⟩
  | refused =>
      have accepted := same.accepted
      exact (accepted ▸ holds : after.accepted tk ∈ refusals)
  | leaving => trivial

end SameAt

-----------------------------------------------------------------------------------------
-- A step of the loop
-----------------------------------------------------------------------------------------

/-- A stream at another stage is not being sent to. -/
theorem not_sending {stage : Stage} (apart : loop.Apart) (here : (tk, stage) ∈ loop.staged)
    (writing : ∀ writer, stage ≠ .writing writer)
    (refusing : ∀ casketResp, stage ≠ .refusing casketResp)
    : ¬ loop.Sending tk := by
  rintro (⟨writer, there⟩ | ⟨casketResp, there⟩)
  · exact writing writer (WorkerLoop.stage_unique apart.once here there)
  · exact refusing casketResp (WorkerLoop.stage_unique apart.once here there)

/-- Nor is one that is not there. -/
theorem not_sending_unheld (unheld : tk ∉ loop.holdings.map Prod.fst) : ¬ loop.Sending tk := by
  rintro (⟨writer, there⟩ | ⟨casketResp, there⟩)
  · exact unheld (WorkerLoop.held_of_staged there)
  · exact unheld (WorkerLoop.held_of_staged there)

/-- What a step of the loop may do around it: read one request, of a stream that was not read,
and send where a response is being sent.
-/
structure Moves (before after : WorkerProcess) : Prop where
  answered : after.answered = before.answered
  reads
    : after.read = before.read
      ∨ ∃ tk httpReq,
          after.read = before.read ++ [(tk, httpReq)]
          ∧ (tk, .unread) ∈ before.loop.staged
          ∧ after.loop.phase.running = true
          ∧ (tk, .read httpReq) ∈ after.loop.staged
  same : ∀ tk, ¬ before.loop.Sending tk → before.SameAt after tk

namespace Moves

variable (moves : self.Moves after)
include moves

theorem read : self.read ⊆ after.read := by
  rcases moves.reads with same | ⟨tk, httpReq, more, -⟩
  · rw [same]
    exact List.Subset.refl _
  · rw [more]
    exact List.subset_append_left _ _

/-- A stream that is not read afterwards was not. -/
theorem unread (apart : after.loop.Apart) (unread : (tk, .unread) ∈ after.loop.staged)
    (before : tk ∉ self.read.map Prod.fst)
    : tk ∉ after.read.map Prod.fst := by
  rcases moves.reads with same | ⟨other, httpReq, more, -, -, there⟩
  · rw [same]
    exact before
  · rw [more, List.map_append, List.mem_append]
    rintro (was | new)
    · exact before was
    · obtain rfl := List.mem_singleton.mp new
      cases WorkerLoop.stage_unique apart.once unread there

/-- The requests that are read afterwards came before. -/
theorem came (kept : self.Kept parser cfg) (apart : self.loop.Apart)
    {request : Token × HttpRequest} (read : request ∈ after.read)
    : request.1 ∈ (total WorkerEffect.came self.loop.trace).map Prod.fst := by
  rcases moves.reads with same | ⟨other, httpReq, more, unread, -⟩
  · exact kept.came request (same ▸ read)
  · rw [more] at read
    rcases List.mem_append.mp read with was | new
    · exact kept.came request was
    · obtain rfl := List.mem_singleton.mp new
      exact apart.came _ (WorkerLoop.held_of_staged unread)

end Moves

/-- What is kept by a step of a loop that runs. -/
theorem Kept.stepped (kept : self.Kept parser cfg) (live : self.Live parser cfg)
    (moves : self.Moves after) (apart : self.loop.Apart) {input : WorkerInput}
    (taken : self.loop.step cfg crates bincode input = some after.loop)
    (handed : ∀ thread ∈ after.threads, thread.handed ⊆ after.read)
    (owns : ∀ tk, self.loop.Sending tk → after.Owns parser cfg tk)
    : after.Kept parser cfg := by
  obtain ⟨effects, trace, notes⟩ := WorkerLoop.step_notes taken
  have answered : self.answered ⊆ after.answered := by
    rw [moves.answered]
    exact List.Subset.refl _
  have grows {tk : Token}
      (came : tk ∈ (total WorkerEffect.came self.loop.trace).map Prod.fst)
      : tk ∈ (total WorkerEffect.came after.loop.trace).map Prod.fst := by
    rw [trace, total_append, Multiset.map_add]
    exact Multiset.mem_add.mpr (.inl came)
  have told {ending : Ending} {response : Response}
      (was : .answered ending response ∈ self.loop.trace)
      : self.SameAt after response.token :=
    moves.same _ (not_sending_unheld (apart.told ending response was))
  have quiet {stage : Stage} {tk : Token} (here : (tk, stage) ∈ self.loop.staged)
      (writing : ∀ writer, stage ≠ .writing writer)
      (refusing : ∀ casketResp, stage ≠ .refusing casketResp)
      : self.SameAt after tk :=
    moves.same _ (not_sending apart here writing refusing)
  constructor
  · rcases moves.reads with same | ⟨tk, httpReq, more, unread, -⟩
    · exact same ▸ kept.once
    · have fresh := (live.stage unread).2
      rw [more, List.map_append, List.nodup_append]
      refine ⟨kept.once, List.nodup_singleton _, ?_⟩
      rintro token was _ is rfl
      rw [List.mem_singleton.mp is] at was
      exact fresh was
  · exact handed
  · intro job known
    rw [moves.answered] at known
    exact moves.read (kept.answered job known)
  · intro request read
    exact grows (moves.came kept apart read)
  · intro tk never
    have before : tk ∉ (total WorkerEffect.came self.loop.trace).map Prod.fst :=
      fun came => never (grows came)
    have unheld : tk ∉ self.loop.holdings.map Prod.fst := fun held => before (apart.came tk held)
    exact (moves.same tk (not_sending_unheld unheld)).untouched (kept.untouched tk before)
  · intro tk
    by_cases sends : self.loop.Sending tk
    · exact owns tk sends
    · exact (moves.same tk sends).owns answered (kept.owns tk)
  · intro response member
    rw [trace] at member
    rcases List.mem_append.mp member with was | new
    · exact (told was).done answered (kept.done response was)
    · obtain ⟨httpResp, here⟩ := (notes _ new).1 rfl
      have same := quiet here (fun _ is => by cases is) fun _ is => by cases is
      exact same.done answered (live.stage here)
  · intro response member
    rw [trace] at member
    rcases List.mem_append.mp member with was | new
    · exact (told was).accepted ▸ kept.refused response was
    · obtain ⟨casketResp, here⟩ := (notes _ new).2 rfl
      have same := quiet here (fun _ is => by cases is) fun _ is => by cases is
      exact same.accepted ▸ live.stage here

/-- The stages of streams after a step of the loop, where it sends nothing itself. -/
theorem Live.stems (live : self.Live parser cfg) (kept : self.Kept parser cfg)
    (moves : self.Moves after) (apart : self.loop.Apart) (later : after.loop.Apart)
    (distinct : ((total WorkerEffect.came after.loop.trace).map Prod.fst).Nodup)
    {input : WorkerInput} {item : Token × Stage} (member : item ∈ after.loop.staged)
    (stems : self.loop.Stems after.loop input item)
    (sent
      : item ∈ self.loop.staged → self.loop.Sending item.1 →
          after.StageHolds parser cfg item.1 item.2)
    (pushed
      : ∀ io tk ev evs tmos results res,
          input = .event io →
          self.loop.phase = .events ((tk, ev) :: evs) tmos results →
          self.loop.EventPushes io tk ev res →
          res ∈ self.loop.pushed after.loop →
          ActionResult.staged? res = some item →
          after.StageHolds parser cfg item.1 item.2)
    : after.StageHolds parser cfg item.1 item.2 := by
  have answered : self.answered ⊆ after.answered := by
    rw [moves.answered]
    exact List.Subset.refl _
  have quiet {stage : Stage} {tk : Token} (here : (tk, stage) ∈ self.loop.staged)
      (writing : ∀ writer, stage ≠ .writing writer)
      (refusing : ∀ casketResp, stage ≠ .refusing casketResp)
      : self.SameAt after tk :=
    moves.same _ (not_sending apart here writing refusing)
  cases stems with
  | stays was =>
      obtain ⟨tk, stage⟩ := item
      by_cases sends : self.loop.Sending tk
      · exact sent was sends
      · have holds := live.stage was
        refine (moves.same tk sends).stageHolds answered moves.read ?_ holds
        rintro rfl
        exact moves.unread later member holds.2
  | @arrives _ tk streams trace new =>
      have never : tk ∉ (total WorkerEffect.came self.loop.trace).map Prod.fst := by
        rw [trace, total_append, total_map WorkerEffect.came _ WorkerLoop.owned fun _ => rfl,
          Multiset.map_add, Multiset.map_coe, List.map_map] at distinct
        refine fun came => Multiset.disjoint_left.mp (Multiset.nodup_add.mp distinct).2.2 came ?_
        exact Multiset.mem_coe.mpr new
      have unheld : tk ∉ self.loop.holdings.map Prod.fst :=
        fun held => never (apart.came tk held)
      have same := moves.same tk (not_sending_unheld unheld)
      refine ⟨same.untouched (kept.untouched tk never), ?_⟩
      intro read
      obtain ⟨request, there, rfl⟩ := List.mem_map.mp read
      exact never (moves.came kept apart there)
  | queued was =>
      have same := quiet was (fun _ is => by cases is) fun _ is => by cases is
      exact same.untouched (live.stage was).1
  | @responding _ tk httpResp waits handled =>
      have same := quiet waits (fun _ is => by cases is) fun _ is => by cases is
      have untouched : after.Untouched tk := same.untouched (live.stage waits)
      obtain ⟨job, known, key, rfl⟩ := live.responses tk _ (.inr handled)
      refine ⟨job, answered known, key, ?_⟩
      dsimp only
      generalize is : job.response parser cfg cfg.server = resp
      have there : resp.respBody.isSome = true := is ▸ rfl
      have channel
          : after.bodies tk = ⟨after.yielded tk, (after.bodies tk).connected⟩ := by
        rw [← untouched.queue]
      rw [Writer.overBody_new _ there, untouched.accepted, channel]
      exact Writer.Carries.new (after.yielded tk) (after.bodies tk).connected
  | @refuses _ tk casketResp was refusal =>
      have untouched : after.Untouched tk := by
        rcases was with was | was
        · have same := quiet was (fun _ is => by cases is) fun _ is => by cases is
          exact same.untouched (live.stage was).1
        · have same := quiet was (fun _ is => by cases is) fun _ is => by cases is
          exact same.untouched (live.stage was)
      refine ⟨refusal.1, ?_⟩
      rw [untouched.accepted, refusal.2]
      rfl
  | pushes stands pushes there is => exact pushed _ _ _ _ _ _ _ rfl stands pushes there is

end WorkerProcess
end Casket
