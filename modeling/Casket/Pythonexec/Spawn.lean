import Casket.Pythonexec.Logger
import Casket.Pythonexec.Thread

/-! `spawn` and the loop of `run`, cut where the other threads of the process may go on in
between. What a thread does is what `Serves` says of the requests it was handed, in their
order.
-/

namespace Casket

-----------------------------------------------------------------------------------------
-- One thread
-----------------------------------------------------------------------------------------

/-- Where a thread is in its loop, with what it has in hand there. -/
inductive ThreadPhase where
  | receiving
  | starting (key : Token) (req : HttpRequest)
  | executing (key : Token) (req : HttpRequest) (now : SystemTime)
  | responding (job : Job) (resp : HttpResponse) (sender : BodySender)
  | streaming (job : Job) (sender : BodySender)
  | ended

/-- A line in the log: one of the application through its logger or through `wsgi.errors`, or
that it raised.
-/
inductive ThreadLine where
  | logged (line : LogLine)
  | errors (line : LogLine)
  | raised (context : Context) (error : ExecError)
  deriving DecidableEq, Repr

/-- A thread: the channel of its requests, the cells of `reqlocal`, and where it is. What it
was handed and what was seen of it are kept.
-/
structure PythonThread where
  recv : List (Token × HttpRequest)
  locals : ReqLocal
  phase : ThreadPhase
  handed : List (Token × HttpRequest)
  seen : List ThreadEvent

/-- What a thread may do next. The application logs while it runs, and a thread may panic at
any time. Where the iterator given to `writelines` logs itself, its items are writes one by one.
-/
inductive ThreadAct where
  | receive
  | sendCodeStart (now : SystemTime)
  | log (level : Level) (msg : String) (tags : Option (List (PyValue × PyValue)))
  | write (error : String)
  | writelines (items : List (Option PyValue))
  | execute (wsgiCallable : WsgiCallable)
  | sendResponse
  | stream
  | panic

namespace ThreadPhase

/-- The thread still runs. -/
def alive : ThreadPhase → Bool
  | .ended => false
  | _ => true

/-- The application may run: it is called, or its iterator goes on. -/
def calls : ThreadPhase → Bool
  | .executing _ _ _ => true
  | .streaming _ (.pyIterator _) => true
  | _ => false

/-- The key and the request the thread has in hand. -/
def inHand? : ThreadPhase → Option (Token × HttpRequest)
  | .starting key req => some (key, req)
  | .executing key req _ => some (key, req)
  | .responding job _ _ => some (job.key, job.req)
  | .streaming job _ => some (job.key, job.req)
  | .receiving | .ended => none

/-- The key whose response is still to be sent. -/
def unanswered? : ThreadPhase → Option Token
  | .starting key _ => some key
  | .executing key _ _ => some key
  | .responding job _ _ => some job.key
  | .receiving | .streaming _ _ | .ended => none

end ThreadPhase

/-- The keys a thread has not answered, in the order it does. -/
def PythonThread.unanswered (self : PythonThread) : List Token :=
  self.phase.unanswered?.toList ++ self.recv.map Prod.fst

namespace PythonThread

/-- A thread that was just spawned. -/
def new : PythonThread where
  recv := []
  locals := .init
  phase := .receiving
  handed := []
  seen := []

/-- A request is sent to the thread. -/
def hand (self : PythonThread) (request : Token × HttpRequest) : PythonThread :=
  { self with recv := self.recv ++ [request], handed := self.handed ++ [request] }

/-- The thread goes on in some phase, and an act of it was seen. -/
def goesOn (self : PythonThread) (locals : ReqLocal) (phase : ThreadPhase)
    (events : List ThreadEvent)
    : PythonThread :=
  { self with locals, phase, seen := self.seen ++ events }

/-- The thread has ended; what is left in its channel is dropped. -/
def ends (self : PythonThread) : PythonThread := { self with recv := [], phase := .ended }

/-- The request a thread serves once it is executed. -/
def job (key : Token) (req : HttpRequest) (now : SystemTime) (wsgiCallable : WsgiCallable)
    : Job where
  key := key
  req := req
  wsgiCallable := wsgiCallable
  now := now
  codeStartAlive := true
  respAlive := true

/-- `error!("python application raised exception", { .. })`. -/
def raisedLines (parser : StatusParser) (wsgiCallable : WsgiCallable)
    (server : String × UInt16) (locals : ReqLocal) (req : HttpRequest)
    : List ThreadLine :=
  match execute parser wsgiCallable server locals req with
  | (.error execError, req, _) => [.raised req.context execError]
  | (.ok _, _, _) => []

/-- `run` up to the next point where others can tell, with the lines it logs. The worker's
ends of the channels are alive or gone; the body is sent to an end that may be gone, which is
ignored.
-/
def step (parser : StatusParser) (cfg : Config) (server : String × UInt16) (connected : Bool)
    (self : PythonThread)
    : ThreadAct → Option (PythonThread × List ThreadLine)
  | .receive =>
      match self.phase, self.recv with
      | .receiving, (key, req) :: recv =>
          some
            ({ self with recv }.goesOn (self.locals.initReqThread.setContext req.context)
                (.starting key req) [],
              [])
      | .receiving, [] => if connected then none else some (self.ends, [])
      | _, _ => none
  | .sendCodeStart now =>
      match self.phase with
      | .starting key req =>
          if connected then
            some (self.goesOn self.locals (.executing key req now) [.codeStart key now], [])
          else
            some (self.ends, [])
      | _ => none
  | .log level msg tags =>
      if self.phase.calls then
        match Logger.call level msg tags self.locals with
        | .ok line => some (self, [.logged line])
        | .error _ => some (self, [])
      else
        none
  | .write error =>
      if self.phase.calls then
        some (self, [.errors (WsgiError.write error)])
      else
        none
  | .writelines items =>
      if self.phase.calls then
        some (self, (WsgiError.writelines items).1.map .errors)
      else
        none
  | .execute wsgiCallable =>
      match self.phase with
      | .executing key req now =>
          let job := job key req now wsgiCallable
          let (header, sender, left, locals) := executed parser cfg server self.locals job
          some
            (self.goesOn locals
                (.responding job (left.intoHttpResponse header ⟨[], true⟩) sender)
                (executeRuns parser wsgiCallable server self.locals req),
              raisedLines parser wsgiCallable server self.locals req)
      | _ => none
  | .sendResponse =>
      match self.phase with
      | .responding job resp sender =>
          if connected then
            some (self.goesOn self.locals (.streaming job sender) [.response job.key resp], [])
          else
            some (self.ends, [])
      | _ => none
  | .stream =>
      match self.phase with
      | .streaming job sender =>
          some
            (self.goesOn (self.locals.start parser sender.starts)
                (if sender.turn.2.connected then .streaming job sender.turn.2 else .receiving)
                (sender.turnEvents self.locals),
              [])
      | _ => none
  | .panic => if self.phase.alive then some (self.ends, []) else none

variable {parser : StatusParser} {cfg : Config} {server : String × UInt16}
  {connected : Bool} {self after : PythonThread} {lines : List ThreadLine}

/-- What a thread does when it goes on. -/
inductive Acts (parser : StatusParser) (cfg : Config) (server : String × UInt16)
    (self : PythonThread)
    : ThreadAct → PythonThread → List ThreadLine → Prop
  | receive {key req recv} (waits : self.phase = .receiving)
    (first : self.recv = (key, req) :: recv)
    : Acts parser cfg server self .receive
        ({ self with recv }.goesOn (self.locals.initReqThread.setContext req.context)
          (.starting key req) [])
        []
  | sendCodeStart {key req now} (stands : self.phase = .starting key req)
    : Acts parser cfg server self (.sendCodeStart now)
        (self.goesOn self.locals (.executing key req now) [.codeStart key now]) []
  | log {level msg tags} (runs : self.phase.calls = true)
    : Acts parser cfg server self (.log level msg tags) self
        ((log level msg (tags.getD []) self.locals).toOption.map .logged).toList
  | write {error} (runs : self.phase.calls = true)
    : Acts parser cfg server self (.write error) self [.errors (WsgiError.write error)]
  | writelines {items} (runs : self.phase.calls = true)
    : Acts parser cfg server self (.writelines items) self
        ((WsgiError.writelines items).1.map .errors)
  | execute {key req now wsgiCallable header sender left locals}
    (stands : self.phase = .executing key req now)
    (gives
      : executed parser cfg server self.locals (job key req now wsgiCallable)
        = (header, sender, left, locals))
    : Acts parser cfg server self (.execute wsgiCallable)
        (self.goesOn locals
          (.responding (job key req now wsgiCallable)
            (left.intoHttpResponse header ⟨[], true⟩) sender)
          (executeRuns parser wsgiCallable server self.locals req))
        (raisedLines parser wsgiCallable server self.locals req)
  | sendResponse {job resp sender} (stands : self.phase = .responding job resp sender)
    : Acts parser cfg server self .sendResponse
        (self.goesOn self.locals (.streaming job sender) [.response job.key resp]) []
  | stream {job sender} (stands : self.phase = .streaming job sender)
    (goes : sender.turn.2.connected = true)
    : Acts parser cfg server self .stream
        (self.goesOn (self.locals.start parser sender.starts) (.streaming job sender.turn.2)
          (sender.turnEvents self.locals))
        []
  | streamed {job sender} (stands : self.phase = .streaming job sender)
    (done : sender.turn.2.connected = false)
    : Acts parser cfg server self .stream
        (self.goesOn (self.locals.start parser sender.starts) .receiving
          (sender.turnEvents self.locals))
        []

/-- A step goes on in one of these ways, or ends the thread: a panic does at any time, and a
message that cannot be sent or received.
-/
theorem step_acts {act : ThreadAct}
    (taken : self.step parser cfg server connected act = some (after, lines))
    : self.Acts parser cfg server act after lines ∧ (act = .sendResponse → connected = true)
      ∨ after = self.ends ∧ lines = []
        ∧ (act = .panic
          ∨ connected = false ∧ ∀ job sender, self.phase ≠ .streaming job sender) := by
  cases act with
  | receive =>
      simp only [step] at taken
      split at taken
      · next waits first =>
          obtain ⟨rfl, rfl⟩ := Prod.mk.inj (Option.some.inj taken)
          exact .inl ⟨.receive waits first, nofun⟩
      · next stands _ =>
          split at taken
          · cases taken
          · next gone =>
              obtain ⟨rfl, rfl⟩ := Prod.mk.inj (Option.some.inj taken)
              have lost := Bool.eq_false_iff.mpr gone
              exact .inr ⟨rfl, rfl, .inr ⟨lost, fun _ _ is => by cases stands.symm.trans is⟩⟩
      · cases taken
  | sendCodeStart now =>
      simp only [step] at taken
      split at taken
      · next stands =>
          split at taken
          · obtain ⟨rfl, rfl⟩ := Prod.mk.inj (Option.some.inj taken)
            exact .inl ⟨.sendCodeStart stands, nofun⟩
          · next gone =>
              obtain ⟨rfl, rfl⟩ := Prod.mk.inj (Option.some.inj taken)
              have lost := Bool.eq_false_iff.mpr gone
              exact .inr ⟨rfl, rfl, .inr ⟨lost, fun _ _ is => by cases stands.symm.trans is⟩⟩
      · cases taken
  | log level msg tags =>
      left
      simp only [step] at taken
      split at taken
      · next runs =>
          have rule
              : self.Acts parser cfg server (.log level msg tags) self
                  ((Casket.log level msg (tags.getD []) self.locals).toOption.map
                    .logged).toList :=
            .log runs
          rw [Logger.call_eq] at taken
          split at taken
          · next logged =>
              obtain ⟨rfl, rfl⟩ := Prod.mk.inj (Option.some.inj taken)
              rw [logged] at rule
              exact ⟨rule, nofun⟩
          · next raised =>
              obtain ⟨rfl, rfl⟩ := Prod.mk.inj (Option.some.inj taken)
              rw [raised] at rule
              exact ⟨rule, nofun⟩
      · cases taken
  | write error =>
      simp only [step] at taken
      split at taken
      · next runs =>
          obtain ⟨rfl, rfl⟩ := Prod.mk.inj (Option.some.inj taken)
          exact .inl ⟨.write runs, nofun⟩
      · cases taken
  | writelines items =>
      simp only [step] at taken
      split at taken
      · next runs =>
          obtain ⟨rfl, rfl⟩ := Prod.mk.inj (Option.some.inj taken)
          exact .inl ⟨.writelines runs, nofun⟩
      · cases taken
  | execute wsgiCallable =>
      simp only [step] at taken
      split at taken
      · next stands =>
          obtain ⟨rfl, rfl⟩ := Prod.mk.inj (Option.some.inj taken)
          exact .inl ⟨.execute stands rfl, nofun⟩
      · cases taken
  | sendResponse =>
      simp only [step] at taken
      split at taken
      · next stands =>
          split at taken
          · next there =>
              obtain ⟨rfl, rfl⟩ := Prod.mk.inj (Option.some.inj taken)
              exact .inl ⟨.sendResponse stands, fun _ => there⟩
          · next gone =>
              obtain ⟨rfl, rfl⟩ := Prod.mk.inj (Option.some.inj taken)
              have lost := Bool.eq_false_iff.mpr gone
              exact .inr ⟨rfl, rfl, .inr ⟨lost, fun _ _ is => by cases stands.symm.trans is⟩⟩
      · cases taken
  | stream =>
      left
      simp only [step] at taken
      split at taken
      · next stands =>
          obtain ⟨rfl, rfl⟩ := Prod.mk.inj (Option.some.inj taken)
          split
          · next goes => exact ⟨.stream stands goes, nofun⟩
          · next done => exact ⟨.streamed stands (Bool.eq_false_iff.mpr done), nofun⟩
      · cases taken
  | panic =>
      simp only [step] at taken
      split at taken
      · obtain ⟨rfl, rfl⟩ := Prod.mk.inj (Option.some.inj taken)
        exact .inr ⟨rfl, rfl, .inl rfl⟩
      · cases taken

end PythonThread

-----------------------------------------------------------------------------------------
-- A thread is `run` over what it was handed
-----------------------------------------------------------------------------------------

/-- Requests that are served one after the other, by induction on the first ones. -/
theorem Serves.append {parser : StatusParser} {cfg : Config} {server : String × UInt16}
    {locals middle after : ReqLocal} {jobs more : List Job}
    {blocks others : List (List ThreadEvent)}
    (first : Serves parser cfg server locals jobs blocks middle)
    (alive : ∀ job ∈ jobs, job.Alive)
    (second : Serves parser cfg server middle more others after)
    : Serves parser cfg server locals (jobs ++ more) (blocks ++ others) after := by
  induction first with
  | ended => exact second
  | codeStartLost dead =>
      exact absurd (alive _ List.mem_cons_self).1 (Bool.eq_false_iff.mp dead)
  | responseLost _ dead =>
      exact absurd (alive _ List.mem_cons_self).2 (Bool.eq_false_iff.mp dead)
  | request here executes streams _ ih =>
      refine .request here executes streams (ih ?_ second)
      exact fun job member => alive job (List.mem_cons_of_mem _ member)

/-- The body of a response has a sender at first. -/
theorem executed_connected {parser : StatusParser} {cfg : Config} {server : String × UInt16}
    {locals rest : ReqLocal} {job : Job} {header : HttpResponseHeader} {sender : BodySender}
    {left : HttpRequest}
    (executes : executed parser cfg server locals job = (header, sender, left, rest))
    : sender.connected = true := by
  unfold executed at executes
  split at executes
  · cases executes
    rfl
  · cases executes
    rfl

namespace PythonThread

variable {parser : StatusParser} {cfg : Config} {server : String × UInt16}
  {connected : Bool} {self after : PythonThread} {lines : List ThreadLine}
  {locals : ReqLocal} {act : ThreadAct}

/-- What a thread has done with the request in hand, if there is one, since it took it with
some cells: the cells it has now, and what was seen.
-/
inductive Progress (parser : StatusParser) (cfg : Config) (server : String × UInt16)
    (locals : ReqLocal)
    : ThreadPhase → ReqLocal → List ThreadEvent → Prop
  | receiving : Progress parser cfg server locals .receiving locals []
  | starting {key req}
    : Progress parser cfg server locals (.starting key req)
        (locals.initReqThread.setContext req.context) []
  | executing {key req now}
    : Progress parser cfg server locals (.executing key req now)
        (locals.initReqThread.setContext req.context) [.codeStart key now]
  | responding {key req now wsgiCallable header sender left rest}
    (executes
      : executed parser cfg server (locals.initReqThread.setContext req.context)
          (job key req now wsgiCallable)
        = (header, sender, left, rest))
    : Progress parser cfg server locals
        (.responding (job key req now wsgiCallable)
          (left.intoHttpResponse header ⟨[], true⟩) sender)
        rest
        (.codeStart key now
          :: executeRuns parser wsgiCallable server
            (locals.initReqThread.setContext req.context) req)
  | streaming {key req now wsgiCallable header first left rest sender here events}
    (executes
      : executed parser cfg server (locals.initReqThread.setContext req.context)
          (job key req now wsgiCallable)
        = (header, first, left, rest))
    (open_ : sender.connected = true)
    (streams
      : ∀ {later after},
          sender.StreamsOn parser here later after →
          first.StreamsOn parser rest (events ++ later) after)
    : Progress parser cfg server locals (.streaming (job key req now wsgiCallable) sender) here
        (.codeStart key now
          :: executeRuns parser wsgiCallable server
            (locals.initReqThread.setContext req.context) req
          ++ .response key (left.intoHttpResponse header ⟨[], true⟩) :: events)

/-- The key and the request of a job. -/
def ofJob (job : Job) : Token × HttpRequest := (job.key, job.req)

/-- A thread that has not ended has served the requests at the front of what it was handed, is
at one, and has the rest before it.
-/
structure Runs (parser : StatusParser) (cfg : Config) (server : String × UInt16)
    (thread : PythonThread) (jobs : List Job) (blocks : List (List ThreadEvent))
    (locals : ReqLocal) (events : List ThreadEvent)
    : Prop where
  serves : Serves parser cfg server .init jobs blocks locals
  alive : ∀ job ∈ jobs, job.Alive
  progress : Progress parser cfg server locals thread.phase thread.locals events
  seen : thread.seen = blocks.flatten ++ events
  handed : thread.handed = jobs.map ofJob ++ (thread.phase.inHand?.toList ++ thread.recv)

theorem runs_new : (new : PythonThread).Runs parser cfg server [] [] .init [] where
  serves := .ended
  alive := nofun
  progress := .receiving
  seen := rfl
  handed := rfl

variable {jobs : List Job} {blocks : List (List ThreadEvent)} {events : List ThreadEvent}

/-- A body whose sender is gone after a turn was streamed by that turn. -/
theorem streamsOn_last {sender : BodySender} (open_ : sender.connected = true)
    (done : sender.turn.2.connected = false) (locals : ReqLocal)
    : sender.StreamsOn parser locals (sender.turnEvents locals)
        (locals.start parser sender.starts) := by
  have gone : sender.turn.2 = .dropped := by
    cases stands : sender.turn.2 with
    | dropped => rfl
    | memory | pyIterator | spent => rw [stands] at done; cases done
  rw [← List.append_nil (sender.turnEvents locals)]
  exact .turn open_ (gone ▸ .dropped)

/-- A thread that goes on runs its requests still, one case for each act. -/
theorem Runs.acts (runs : self.Runs parser cfg server jobs blocks locals events)
    (acts : self.Acts parser cfg server act after lines)
    : ∃ jobs blocks locals events, after.Runs parser cfg server jobs blocks locals events := by
  obtain ⟨serves, alive, progress, seen, handed⟩ := runs
  cases acts with
  | receive waits first =>
      rw [waits] at progress handed
      cases progress
      refine ⟨jobs, blocks, self.locals, [], serves, alive, .starting, ?_, ?_⟩
      · exact (List.append_nil _).trans seen
      · rw [first] at handed
        exact handed
  | @sendCodeStart key req now stands =>
      rw [stands] at progress handed
      generalize cells : self.locals = here at progress
      cases progress
      refine ⟨jobs, blocks, locals, [.codeStart key now], serves, alive, ?_, ?_, handed⟩
      · exact .executing
      · dsimp only [goesOn]
        rw [seen, List.append_nil]
  | log | write | writelines =>
      exact ⟨jobs, blocks, locals, events, serves, alive, progress, seen, handed⟩
  | @execute key req now wsgiCallable header sender left rest stands gives =>
      rw [stands] at progress handed
      generalize cells : self.locals = here at progress gives
      cases progress
      refine ⟨jobs, blocks, locals, _, serves, alive, .responding gives, ?_, handed⟩
      dsimp only [goesOn]
      rw [seen, List.append_assoc]
      rfl
  | @sendResponse job resp sender stands =>
      rw [stands] at progress handed
      generalize cells : self.locals = here at progress
      cases progress with
      | responding executes =>
          have streams :=
            @Progress.streaming parser cfg server locals _ _ _ _ _ _ _ _ _ _ [] executes
              (executed_connected executes) fun streams => streams
          refine ⟨jobs, blocks, locals, _, serves, alive, streams, ?_, handed⟩
          dsimp only [goesOn]
          rw [seen, List.append_assoc]
          rfl
  | @stream job sender stands goes =>
      rw [stands] at progress handed
      generalize cells : self.locals = here at progress
      cases progress with
      | @streaming _ _ _ _ _ first left rest _ _ events executes open_ streams =>
          have more {later : List ThreadEvent} {after : ReqLocal}
              (rest_
                : sender.turn.2.StreamsOn parser (here.start parser sender.starts) later after)
              : first.StreamsOn parser rest (events ++ sender.turnEvents here ++ later) after := by
            rw [List.append_assoc]
            exact streams (.turn open_ rest_)
          refine ⟨jobs, blocks, locals, _, serves, alive, .streaming executes goes more, ?_,
            handed⟩
          dsimp only [goesOn]
          rw [seen, List.append_assoc]
          simp
  | @streamed job sender stands done =>
      rw [stands] at progress handed
      generalize cells : self.locals = here at progress
      cases progress with
      | @streaming key req now wsgiCallable header first left rest _ _ events executes open_
          streams =>
          have served := streams (streamsOn_last open_ done here)
          have goes : (PythonThread.job key req now wsgiCallable).Alive := ⟨rfl, rfl⟩
          have last := Serves.request goes executes served .ended
          refine ⟨_, _, _, [], serves.append alive last, ?_, ?_, ?_, ?_⟩
          · intro job member
            rcases List.mem_append.mp member with old | new
            · exact alive job old
            · obtain rfl := List.mem_singleton.mp new
              exact ⟨rfl, rfl⟩
          · exact .receiving
          · dsimp only [goesOn]
            rw [seen, List.flatten_append, List.append_nil, List.append_assoc]
            simp [PythonThread.job]
          · dsimp only [goesOn]
            rw [handed, List.map_append, List.append_assoc]
            rfl

end PythonThread
end Casket
