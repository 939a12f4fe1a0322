import Casket.Lib.Pointwise
import Casket.Worker.Delivery

/-! The loop of one python thread over the requests it takes. The two cells of `reqlocal` are
carried from one request to the next, and `start_response` may be called at any time.
-/

namespace Casket

open Lib

/-- What a thread does that can be seen: its messages, and the application running with a
context that its logger would find.
-/
inductive ThreadEvent where
  | codeStart (key : Token) (time : SystemTime)
  | runs (context : Option Context)
  | response (key : Token) (resp : HttpResponse)
  | bodyChunk (chunk : Bytes)
  deriving DecidableEq, Repr

/-- A request a thread takes, how the application behaves for it, the clock, and whether the
receiving ends of the two channels are alive.
-/
structure Job where
  key : Token
  req : HttpRequest
  wsgiCallable : WsgiCallable
  now : SystemTime
  codeStartAlive : Bool
  respAlive : Bool

/-- Both receiving ends are alive. -/
def Job.Alive (job : Job) : Prop := job.codeStartAlive = true ∧ job.respAlive = true

/-- `init_req_thread`. -/
def ReqLocal.initReqThread (self : ReqLocal) : ReqLocal :=
  { self with context := none, responseHeader := none }

/-- The part of `execute` where the application runs: the call, and the first step of the
iterator if a header was put.
-/
def executeRuns (parser : StatusParser) (wsgiCallable : WsgiCallable)
    (server : String × UInt16) (locals : ReqLocal) (req : HttpRequest)
    : List ThreadEvent :=
  let call := wsgiCallable (buildEnviron server req).1
  match call.result, (locals.start parser call.starts).takeResponseHeader with
  | .ok _, (some _, rest) => [.runs locals.context, .runs rest.context]
  | _, _ => [.runs locals.context]

/-- `wsgi::execute` and what `run` makes of its result. -/
def executed (parser : StatusParser) (cfg : Config) (server : String × UInt16)
    (locals : ReqLocal) (job : Job)
    : HttpResponseHeader × BodySender × HttpRequest × ReqLocal :=
  match execute parser job.wsgiCallable server locals job.req with
  | (.ok (header, bytesIter), req, locals) => (header, .pyIterator bytesIter, req, locals)
  | (.error execError, req, locals) =>
      let (header, body) := handleWsgiExecErr cfg execError
      (header, .memory body, req, locals)

namespace BodySender

/-- The calls of `start_response` made in a turn of the streaming loop. -/
def starts : BodySender → List StartCall
  | .pyIterator bytesIter => (bytesIter.bytesIter bytesIter.pos).starts
  | .memory _ | .spent | .dropped => []

/-- What is seen of a turn: the application runs if there is an iterator, and a chunk may be
sent.
-/
def turnEvents (self : BodySender) (locals : ReqLocal) : List ThreadEvent :=
  (match self with
    | .pyIterator _ => [.runs locals.context]
    | .memory _ | .spent | .dropped => [])
  ++ self.turn.1.toList.map .bodyChunk

/-- The streaming loop ends, with the events of its turns. -/
inductive StreamsOn (parser : StatusParser)
    : BodySender → ReqLocal → List ThreadEvent → ReqLocal → Prop
  | dropped {locals} : StreamsOn parser .dropped locals [] locals
  | turn {sender locals events after} (open_ : sender.connected)
    (later
      : StreamsOn parser sender.turn.2 (locals.start parser sender.starts) events after)
    : StreamsOn parser sender locals (sender.turnEvents locals ++ events) after

end BodySender

/-- `run` over some requests: the events of each of them, and the cells it leaves. A message
that cannot be sent ends the loop.
-/
inductive Serves (parser : StatusParser) (cfg : Config) (server : String × UInt16)
    : ReqLocal → List Job → List (List ThreadEvent) → ReqLocal → Prop
  | ended {locals} : Serves parser cfg server locals [] [] locals
  | codeStartLost {locals job jobs} (dead : job.codeStartAlive = false)
    : Serves parser cfg server locals (job :: jobs) []
        (locals.initReqThread.setContext job.req.context)
  | responseLost {locals job jobs header sender req rest}
    (alive : job.codeStartAlive = true) (dead : job.respAlive = false)
    (executes
      : executed parser cfg server (locals.initReqThread.setContext job.req.context) job
        = (header, sender, req, rest))
    : Serves parser cfg server locals (job :: jobs)
        [.codeStart job.key job.now
          :: executeRuns parser job.wsgiCallable server
            (locals.initReqThread.setContext job.req.context) job.req]
        rest
  | request {locals job jobs header sender req rest events streamed blocks after}
    (alive : job.Alive)
    (executes
      : executed parser cfg server (locals.initReqThread.setContext job.req.context) job
        = (header, sender, req, rest))
    (streams : sender.StreamsOn parser rest events streamed)
    (later : Serves parser cfg server streamed jobs blocks after)
    : Serves parser cfg server locals (job :: jobs)
        ((.codeStart job.key job.now
            :: executeRuns parser job.wsgiCallable server
              (locals.initReqThread.setContext job.req.context) job.req
            ++ .response job.key (req.intoHttpResponse header ⟨[], true⟩) :: events)
          :: blocks)
        after

-----------------------------------------------------------------------------------------
-- Nothing is left of the cells
-----------------------------------------------------------------------------------------

/-- Calls of `start_response` leave the context, by induction on the calls. -/
theorem ReqLocal.start_context (parser : StatusParser) (self : ReqLocal)
    (calls : List StartCall)
    : (self.start parser calls).context = self.context := by
  induction calls generalizing self with
  | nil => rfl
  | cons call rest ih =>
      refine (ih _).trans ?_
      simp only
      split
      · rfl
      · rfl

/-- So does taking the header after some calls. -/
theorem ReqLocal.took_context {parser : StatusParser} {self rest : ReqLocal}
    {calls : List StartCall} {header : Option HttpResponseHeader}
    (took : (self.start parser calls).takeResponseHeader = (header, rest))
    : rest.context = self.context := by
  have left : (self.start parser calls).takeResponseHeader.2 = rest := congrArg Prod.snd took
  rw [← left]
  exact self.start_context parser calls

/-- While it is called the application finds the context it was called with. -/
theorem executeRuns_context {parser : StatusParser} {wsgiCallable : WsgiCallable}
    {server : String × UInt16} {locals : ReqLocal} {req : HttpRequest} {event : ThreadEvent}
    (member : event ∈ executeRuns parser wsgiCallable server locals req)
    : event = .runs locals.context := by
  unfold executeRuns at member
  simp only at member
  split at member
  · next took =>
      rw [ReqLocal.took_context took] at member
      simpa using member
  · simpa using member

/-- The loop leaves the context of the cells it starts with. -/
theorem execute_context {parser : StatusParser} {wsgiCallable : WsgiCallable}
    {server : String × UInt16} {locals : ReqLocal} {req : HttpRequest}
    : (execute parser wsgiCallable server locals req).2.2.context = locals.context := by
  unfold execute
  simp only
  split
  · exact locals.start_context parser _
  · split
    · next took => exact ReqLocal.took_context took
    · next header rest took =>
        have same := ReqLocal.took_context took
        split
        · exact (rest.start_context parser _).trans same
        · exact (rest.start_context parser _).trans same

/-- So does `run` with its result. -/
theorem executed_context {parser : StatusParser} {cfg : Config} {server : String × UInt16}
    {locals rest : ReqLocal} {job : Job} {header : HttpResponseHeader} {sender : BodySender}
    {req : HttpRequest}
    (executes : executed parser cfg server locals job = (header, sender, req, rest))
    : rest.context = locals.context := by
  have same : (executed parser cfg server locals job).2.2.2
      = (execute parser job.wsgiCallable server locals job.req).2.2 := by
    unfold executed
    split
    · next returned => rw [returned]
    · next returned => rw [returned]
  rw [executes] at same
  exact (congrArg ReqLocal.context same).trans execute_context

namespace BodySender

variable {parser : StatusParser}

/-- While a body is streamed the application finds one context, and only chunks are sent.
Witness: induction on the turns.
-/
theorem StreamsOn.events {sender : BodySender} {locals after : ReqLocal}
    {events : List ThreadEvent} (streams : sender.StreamsOn parser locals events after)
    : ∀ event ∈ events, event = .runs locals.context ∨ ∃ chunk, event = .bodyChunk chunk := by
  induction streams with
  | dropped => exact fun event member => absurd member List.not_mem_nil
  | @turn sender locals events after open_ _ ih =>
      intro event member
      rcases List.mem_append.mp member with here | later
      · rcases List.mem_append.mp here with runs | sent
        · left
          cases sender with
          | pyIterator => simpa using runs
          | memory | spent | dropped => cases runs
        · obtain ⟨chunk, -, rfl⟩ := List.mem_map.mp sent
          exact .inr ⟨chunk, rfl⟩
      · rcases ih event later with runs | sent
        · left
          rw [runs, locals.start_context parser]
        · exact .inr sent

/-- The events of the turns depend on the context only. Witness: induction on the turns. -/
theorem StreamsOn.unique {sender : BodySender} {locals after locals' after' : ReqLocal}
    {events events' : List ThreadEvent} (one : sender.StreamsOn parser locals events after)
    (other : sender.StreamsOn parser locals' events' after')
    (same : locals.context = locals'.context)
    : events = events' := by
  induction one generalizing locals' events' with
  | dropped =>
      cases other with
      | dropped => rfl
      | turn open_ => cases open_
  | @turn sender locals events after open_ _ ih =>
      cases other with
      | dropped => cases open_
      | turn _ later =>
          have rest := ih later
            ((locals.start_context parser _).trans
              (same.trans (locals'.start_context parser _).symm))
          have turns : sender.turnEvents locals = sender.turnEvents locals' := by
            unfold turnEvents
            rw [same]
          rw [turns, rest]

/-- A loop that ends does so whatever the cells hold. Witness: induction on the turns. -/
theorem Streams.on (parser : StatusParser) {sender : BodySender} {chunks : List Bytes}
    (streams : sender.Streams chunks) (locals : ReqLocal)
    : ∃ events after, sender.StreamsOn parser locals events after := by
  induction streams generalizing locals with
  | dropped => exact ⟨[], locals, .dropped⟩
  | turn open_ _ ih =>
      obtain ⟨events, after, later⟩ := ih (locals.start parser _)
      exact ⟨_, after, .turn open_ later⟩

end BodySender
-----------------------------------------------------------------------------------------
-- One request
-----------------------------------------------------------------------------------------

/-- The message of an event, if it is sent on one of the thread's own channels. -/
def ThreadEvent.isMessage : ThreadEvent → Bool
  | .codeStart .. | .response .. => true
  | .runs _ | .bodyChunk _ => false

/-- What a request and its application make of fresh cells. -/
def Job.executed (parser : StatusParser) (cfg : Config) (server : String × UInt16)
    (job : Job)
    : HttpResponseHeader × BodySender × HttpRequest × ReqLocal :=
  Casket.executed parser cfg server (ReqLocal.init.setContext job.req.context) job

/-- The response to a request. -/
def Job.response (parser : StatusParser) (cfg : Config) (server : String × UInt16)
    (job : Job)
    : HttpResponse :=
  (job.executed parser cfg server).2.2.1.intoHttpResponse (job.executed parser cfg server).1
    ⟨[], true⟩

/-- The body of the response is finite. -/
def Job.Finite (parser : StatusParser) (cfg : Config) (server : String × UInt16) (job : Job)
    : Prop :=
  ∃ chunks, (job.executed parser cfg server).2.1.Streams chunks

/-- The events of one request: its code start, the application as it is called, its response,
and then the turns of the streaming loop; these are its only messages, and the application
finds its context throughout.
-/
structure Job.Seen (parser : StatusParser) (cfg : Config) (server : String × UInt16)
    (job : Job) (block : List ThreadEvent)
    : Prop where
  messages
    : block.filter (·.isMessage)
      = [.codeStart job.key job.now, .response job.key (job.response parser cfg server)]
  context : ∀ context, .runs context ∈ block → context = some job.req.context
  order
    : ∃ events after,
        block
          = .codeStart job.key job.now
              :: executeRuns parser job.wsgiCallable server
                (ReqLocal.init.setContext job.req.context) job.req
            ++ .response job.key (job.response parser cfg server) :: events
        ∧ (job.executed parser cfg server).2.1.StreamsOn parser
          (job.executed parser cfg server).2.2.2 events after

namespace Job

variable {parser : StatusParser} {cfg : Config} {server : String × UInt16} {job : Job}
  {locals rest after : ReqLocal} {header : HttpResponseHeader} {sender : BodySender}
  {req : HttpRequest} {events : List ThreadEvent}

/-- The block of a request, from the parts of its execution. -/
theorem seen (executes : job.executed parser cfg server = (header, sender, req, rest))
    (streams : sender.StreamsOn parser rest events after)
    : job.Seen parser cfg server
        (.codeStart job.key job.now
            :: executeRuns parser job.wsgiCallable server
              (ReqLocal.init.setContext job.req.context) job.req
            ++ .response job.key (req.intoHttpResponse header ⟨[], true⟩) :: events) := by
  have found : rest.context = some job.req.context := executed_context executes
  have quiet
      : ∀ event ∈ executeRuns parser job.wsgiCallable server
          (ReqLocal.init.setContext job.req.context) job.req,
          event.isMessage = false := by
    intro event member
    rw [executeRuns_context member]
    rfl
  have streamed : ∀ event ∈ events, event.isMessage = false := by
    intro event member
    rcases streams.events event member with rfl | ⟨chunk, rfl⟩
    · rfl
    · rfl
  have response : job.response parser cfg server
      = req.intoHttpResponse header ⟨[], true⟩ := by
    simp only [Job.response, executes]
  refine ⟨?_, ?_, ?_⟩
  · have none_ : (executeRuns parser job.wsgiCallable server
        (ReqLocal.init.setContext job.req.context) job.req).filter (·.isMessage) = [] :=
      List.filter_eq_nil_iff.mpr fun event member => by simp [quiet event member]
    have none' : events.filter (·.isMessage) = [] :=
      List.filter_eq_nil_iff.mpr fun event member => by simp [streamed event member]
    rw [List.cons_append, List.filter_cons_of_pos rfl, List.filter_append, none_,
      List.filter_cons_of_pos rfl, none', response]
    rfl
  · intro context member
    rcases List.mem_cons.mp member with impossible | member
    · cases impossible
    · rcases List.mem_append.mp member with called | member
      · exact ThreadEvent.runs.inj (executeRuns_context called)
      · rcases List.mem_cons.mp member with impossible | member
        · cases impossible
        · rcases streams.events _ member with runs | ⟨chunk, impossible⟩
          · exact (ThreadEvent.runs.inj runs).trans found
          · cases impossible
  · rw [response, executes]
    exact ⟨events, after, rfl, streams⟩

end Job

-----------------------------------------------------------------------------------------
-- All requests
-----------------------------------------------------------------------------------------

namespace Serves

variable {parser : StatusParser} {cfg : Config} {server : String × UInt16}
  {locals after locals' after' : ReqLocal} {jobs jobs' : List Job}
  {blocks blocks' : List (List ThreadEvent)}

/-- Every request gets its own block, by induction on the requests. -/
theorem seen (serves : Serves parser cfg server locals jobs blocks after)
    (alive : ∀ job ∈ jobs, job.Alive)
    : List.Forall₂ (fun job block => job.Seen parser cfg server block) jobs blocks := by
  induction serves with
  | ended => exact .nil
  | codeStartLost dead =>
      have lives := (alive _ List.mem_cons_self).1
      rw [dead] at lives
      cases lives
  | responseLost _ dead =>
      have lives := (alive _ List.mem_cons_self).2
      rw [dead] at lives
      cases lives
  | request _ executes streams _ ih =>
      exact .cons (Job.seen executes streams)
        (ih fun job member => alive job (List.mem_cons_of_mem _ member))

/-- The parts of the block of one request. -/
theorem block (serves : Serves parser cfg server locals jobs blocks after)
    (alive : ∀ job ∈ jobs, job.Alive) {k : Nat} {job : Job} (here : jobs[k]? = some job)
    : ∃ events streamed,
        (job.executed parser cfg server).2.1.StreamsOn parser
          (job.executed parser cfg server).2.2.2 events streamed
        ∧ blocks[k]?
          = some
              (.codeStart job.key job.now
                :: executeRuns parser job.wsgiCallable server
                  (ReqLocal.init.setContext job.req.context) job.req
                ++ .response job.key (job.response parser cfg server) :: events) := by
  obtain ⟨block, there, seen⟩ := forall₂_getElem? (serves.seen alive).flip here
  obtain ⟨events, streamed, rfl, streams⟩ := seen.order
  exact ⟨events, streamed, streams, there⟩

/-- Finite bodies are streamed to their ends, so every request is served. Witness: induction
on the requests.
-/
theorem exists_of_finite (parser : StatusParser) (cfg : Config) (server : String × UInt16)
    (jobs : List Job) (alive : ∀ job ∈ jobs, job.Alive)
    (finite : ∀ job ∈ jobs, job.Finite parser cfg server) (locals : ReqLocal)
    : ∃ blocks after, Serves parser cfg server locals jobs blocks after := by
  induction jobs generalizing locals with
  | nil => exact ⟨[], locals, .ended⟩
  | cons job rest ih =>
      obtain ⟨chunks, streams⟩ := finite job List.mem_cons_self
      obtain ⟨events, streamed, streams⟩ :=
        streams.on parser (job.executed parser cfg server).2.2.2
      obtain ⟨blocks, after, later⟩ :=
        ih (fun job member => alive job (List.mem_cons_of_mem _ member))
          (fun job member => finite job (List.mem_cons_of_mem _ member)) streamed
      exact ⟨_, after, .request (alive job List.mem_cons_self) rfl streams later⟩

end Serves

-----------------------------------------------------------------------------------------
-- Isolation
-----------------------------------------------------------------------------------------

/-- The response an event sends, without its key. -/
def ThreadEvent.response? : ThreadEvent → Option HttpResponse
  | .response _ resp => some resp
  | _ => none

/-- The context a logger would find in an event. -/
def ThreadEvent.context? : ThreadEvent → Option (Option Context)
  | .runs context => some context
  | _ => none

/-- The responses and contexts of a request and its application are the same in any two
runs, whatever was served before.
-/
theorem Serves.isolated {parser : StatusParser} {cfg : Config} {server : String × UInt16}
    {locals after locals' after' : ReqLocal} {jobs jobs' : List Job}
    {blocks blocks' : List (List ThreadEvent)}
    (serves : Serves parser cfg server locals jobs blocks after)
    (other : Serves parser cfg server locals' jobs' blocks' after')
    (alive : ∀ job ∈ jobs, job.Alive) (alive' : ∀ job ∈ jobs', job.Alive) {k l : Nat}
    {job job' : Job} (here : jobs[k]? = some job) (there : jobs'[l]? = some job')
    (sameReq : job.req = job'.req) (sameApp : job.wsgiCallable = job'.wsgiCallable)
    : (blocks[k]?).map (·.filterMap (·.response?))
        = (blocks'[l]?).map (·.filterMap (·.response?))
      ∧ (blocks[k]?).map (·.filterMap (·.context?))
        = (blocks'[l]?).map (·.filterMap (·.context?)) := by
  obtain ⟨events, streamed, streams, found⟩ := serves.block alive here
  obtain ⟨events', streamed', streams', found'⟩ := other.block alive' there
  have execution : job.executed parser cfg server = job'.executed parser cfg server := by
    simp only [Job.executed, Casket.executed, sameReq, sameApp]
  have response : job.response parser cfg server = job'.response parser cfg server := by
    simp only [Job.response, execution]
  rw [execution] at streams
  have same := streams.unique streams' rfl
  rw [found, found', same, response, sameReq, sameApp]
  refine ⟨?_, ?_⟩
  · simp [ThreadEvent.response?]
  · simp [ThreadEvent.context?]

/-- A thread whose receivers are alive sends for each request, in order, one code start and
then one response with its key; the response and the context its application finds are made
of the request and the application alone, so no run differs in them whatever it served
before. With finite bodies every request is served.
-/
theorem requests_isolated (parser : StatusParser) (cfg : Config) (server : String × UInt16)
    (jobs : List Job) (alive : ∀ job ∈ jobs, job.Alive)
    : ((∀ job ∈ jobs, job.Finite parser cfg server) →
        ∀ locals, ∃ blocks after, Serves parser cfg server locals jobs blocks after)
      ∧ ∀ {locals blocks after},
          Serves parser cfg server locals jobs blocks after →
          List.Forall₂ (fun job block => job.Seen parser cfg server block) jobs blocks
          ∧ ∀ {locals' jobs' blocks' after'},
              Serves parser cfg server locals' jobs' blocks' after' →
              (∀ job ∈ jobs', job.Alive) →
              ∀ {k l : Nat} {job job' : Job},
                jobs[k]? = some job →
                jobs'[l]? = some job' →
                job.req = job'.req →
                job.wsgiCallable = job'.wsgiCallable →
                (blocks[k]?).map (·.filterMap (·.response?))
                    = (blocks'[l]?).map (·.filterMap (·.response?))
                  ∧ (blocks[k]?).map (·.filterMap (·.context?))
                    = (blocks'[l]?).map (·.filterMap (·.context?)) := by
  refine ⟨?_, ?_⟩
  · intro finite locals
    exact Serves.exists_of_finite parser cfg server jobs alive finite locals
  · intro locals blocks after serves
    refine ⟨serves.seen alive, ?_⟩
    intro locals' jobs' blocks' after' other alive' k l job job' here there sameReq sameApp
    exact serves.isolated other alive alive' here there sameReq sameApp

/-- An application that calls `start_response` again when its only chunk has been taken. -/
def startsLate : WsgiCallable := fun _ =>
  { starts := [⟨"200 OK", []⟩]
    result :=
      .ok fun
        | 0 => ⟨[], .chunk [104, 105]⟩
        | 1 => ⟨[⟨"200 OK", [.pair "X-Late" "1"]⟩], .stop⟩
        | _ => ⟨[], .stop⟩ }

/-- An application that never calls it. -/
def startsNever : WsgiCallable := fun _ => { starts := [], result := .ok fun _ => ⟨[], .stop⟩ }

/-- The header put late is not that of the next response. -/
theorem requests_isolated_late
    : ∃ blocks after,
        Serves .ok (.default "h") ("h", 80) .init
          [⟨128, rootRequest, startsLate, 0, true, true⟩,
            ⟨256, rootRequest, startsNever, 0, true, true⟩]
          blocks after
        ∧ List.Forall₂ (fun job block => Job.Seen .ok (.default "h") ("h", 80) job block)
          [⟨128, rootRequest, startsLate, 0, true, true⟩,
            ⟨256, rootRequest, startsNever, 0, true, true⟩]
          blocks
        ∧ (Job.response .ok (.default "h") ("h", 80)
            ⟨256, rootRequest, startsNever, 0, true, true⟩).code
          = 500 := by
  let late : Job := ⟨128, rootRequest, startsLate, 0, true, true⟩
  let never : Job := ⟨256, rootRequest, startsNever, 0, true, true⟩
  have alive : ∀ job ∈ [late, never], job.Alive := by
    intro job member
    rcases List.mem_cons.mp member with rfl | member
    · exact ⟨rfl, rfl⟩
    · obtain rfl := List.mem_singleton.mp member
      exact ⟨rfl, rfl⟩
  have started : startResponse .ok ⟨"200 OK", []⟩ = .ok ⟨200, "OK", []⟩ := by
    decide +kernel
  have lateFinite : late.Finite .ok (.default "h") ("h", 80) := by
    refine ⟨[[104, 105]], ?_⟩
    simp only [Job.executed, Casket.executed, execute, late, startsLate, ReqLocal.start,
      List.foldl_cons, List.foldl_nil, started, ReqLocal.putResponseHeader,
      ReqLocal.takeResponseHeader, BytesIter.new, nextBodyChunk]
    exact .turn rfl (.turn rfl .dropped)
  have neverFinite : never.Finite .ok (.default "h") ("h", 80) :=
    ⟨_, BodySender.streams_memory _⟩
  have finite : ∀ job ∈ [late, never], job.Finite .ok (.default "h") ("h", 80) := by
    intro job member
    rcases List.mem_cons.mp member with rfl | member
    · exact lateFinite
    · obtain rfl := List.mem_singleton.mp member
      exact neverFinite
  have isolated := requests_isolated .ok (.default "h") ("h", 80) [late, never] alive
  obtain ⟨blocks, after, serves⟩ := isolated.1 finite .init
  exact ⟨blocks, after, serves, (isolated.2 serves).1, rfl⟩

end Casket
