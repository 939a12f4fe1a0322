import Casket.Worker.Serving

/-! The lines that are logged while requests are served. Each is of one request and has the
ids of that request's context, whatever its thread served before and whatever the others do;
only what is written to `wsgi.errors` has none.
-/

namespace Casket

open Lib

-----------------------------------------------------------------------------------------
-- The context of a thread
-----------------------------------------------------------------------------------------

/-- What a line says of a request: its ids follow the tags the application gave, or they are
those of the exception that its application raised. A line of `wsgi.errors` has a text only.
-/
inductive Tells (parser : StatusParser) (server : String × UInt16)
    (request : Token × HttpRequest)
    : ThreadLine → Prop
  | logged {level : Level} {msg : String} {keys : List (PyValue × PyValue)}
    {entries : List Entry} (tagged : keys.mapM tagEntry = .ok entries)
    : Tells parser server request
        (.logged { level, msg, entries := entries ++ contextEntries request.2.context })
  | errors {error : String} : Tells parser server request (.errors (WsgiError.write error))
  | raised {wsgiCallable : WsgiCallable} {locals : ReqLocal} {error : ExecError}
    (raises : (execute parser wsgiCallable server locals request.2).1 = .error error)
    : Tells parser server request (.raised request.2.context error)

/-- The acts in which an application logs. -/
def ThreadAct.logs : ThreadAct → Bool
  | .log .. | .write _ | .writelines _ => true
  | .receive | .sendCodeStart _ | .execute _ | .sendResponse | .stream | .panic => false

/-- The lines that are logged in such an act, for a request with some context. A call of the
logger with a tag that may not be logged writes none; a call of `writelines` stops at the
first item that is no text.
-/
def ThreadAct.LogsLines (context : Context) (lines : List ThreadLine) : ThreadAct → Prop
  | .log level msg tags =>
      ((∃ tag ∈ tags.getD [], ¬ Loggable tag) → lines = [])
      ∧ ((∀ tag ∈ tags.getD [], Loggable tag) →
        ∃ entries,
          (tags.getD []).mapM tagEntry = .ok entries
          ∧ lines
            = [.logged { level, msg, entries := entries ++ contextEntries context }])
  | .write error => lines = [.errors (WsgiError.write error)]
  | .writelines items =>
      ∃ texts rest,
        WsgiError.TextsUntil items texts rest
        ∧ lines = texts.map fun text => .errors (WsgiError.write text)
  | .receive | .sendCodeStart _ | .execute _ | .sendResponse | .stream | .panic => True

/-- The request is left with its context. -/
theorem execute_left (parser : StatusParser) (wsgiCallable : WsgiCallable)
    (server : String × UInt16) (locals : ReqLocal) (req : HttpRequest)
    : (execute parser wsgiCallable server locals req).2.1.context = req.context := by
  simp only [execute]
  split
  · rfl
  · split
    · rfl
    · split <;> rfl

namespace PythonThread

variable {parser : StatusParser} {cfg : Config} {server : String × UInt16}
  {self after : PythonThread} {act : ThreadAct} {lines : List ThreadLine}

/-- The cells of a thread have the context of the request in hand. -/
def Contexted (self : PythonThread) : Prop :=
  ∀ request,
    self.phase.inHand? = some request → self.locals.context = some request.2.context

theorem contexted_ends (self : PythonThread) : self.ends.Contexted := by
  intro request inHand
  cases inHand

/-- Every act keeps them so. -/
theorem Acts.contexted (acts : self.Acts parser cfg server act after lines)
    (contexted : self.Contexted)
    : after.Contexted := by
  cases acts with
  | receive =>
      intro request inHand
      obtain rfl := Option.some.inj inHand
      rfl
  | sendCodeStart stands =>
      intro request inHand
      exact contexted request (stands ▸ inHand)
  | log | write | writelines => exact contexted
  | execute stands gives =>
      intro request inHand
      refine (executed_context gives).trans (contexted request ?_)
      rw [stands]
      exact inHand
  | sendResponse stands =>
      intro request inHand
      exact contexted request (stands ▸ inHand)
  | stream stands goes =>
      intro request inHand
      refine (ReqLocal.start_context parser _ _).trans (contexted request ?_)
      rw [stands]
      exact inHand
  | streamed =>
      intro request inHand
      cases inHand

/-- Where the application may log there is a request. -/
theorem inHand_of_calls {phase : ThreadPhase} (runs : phase.calls = true)
    : ∃ request, phase.inHand? = some request := by
  cases phase with
  | executing key req => exact ⟨(key, req), rfl⟩
  | streaming job => exact ⟨(job.key, job.req), rfl⟩
  | _ => cases runs

/-- A line that is logged has the ids of the request in hand. -/
theorem log_contexted {level : Level} {msg : String} {keys : List (PyValue × PyValue)}
    {line : LogLine} {request : Token × HttpRequest} (contexted : self.Contexted)
    (inHand : self.phase.inHand? = some request)
    (logged : log level msg keys self.locals = .ok line)
    : ∃ entries,
        keys.mapM tagEntry = .ok entries
        ∧ line = { level, msg, entries := entries ++ contextEntries request.2.context } := by
  obtain ⟨entries, tagged, same⟩ := log_spec logged
  rw [contexted request inHand] at same
  exact ⟨entries, tagged, same⟩

/-- Every line of an act tells of the request in hand. -/
theorem Acts.tells (acts : self.Acts parser cfg server act after lines)
    (contexted : self.Contexted)
    : ∀ line ∈ lines, ∃ request, self.phase.inHand? = some request
        ∧ Tells parser server request line := by
  intro line member
  cases acts with
  | receive | sendCodeStart | sendResponse | stream | streamed => cases member
  | @log level msg tags runs =>
      obtain ⟨request, inHand⟩ := inHand_of_calls runs
      obtain ⟨logged, there, rfl⟩ := Option.map_eq_some_iff.mp (Option.mem_toList.mp member)
      cases result : Casket.log level msg (tags.getD []) self.locals with
      | error e =>
          rw [result] at there
          cases there
      | ok written =>
          rw [result] at there
          obtain rfl := Option.some.inj there
          obtain ⟨entries, tagged, rfl⟩ := log_contexted contexted inHand result
          exact ⟨request, inHand, .logged tagged⟩
  | write runs =>
      obtain ⟨request, inHand⟩ := inHand_of_calls runs
      obtain rfl := List.mem_singleton.mp member
      exact ⟨request, inHand, .errors⟩
  | @writelines items runs =>
      obtain ⟨request, inHand⟩ := inHand_of_calls runs
      obtain ⟨texts, rest, -, written, -⟩ := WsgiError.writelines_spec items
      rw [written, List.map_map] at member
      obtain ⟨text, -, rfl⟩ := List.mem_map.mp member
      exact ⟨request, inHand, .errors⟩
  | @execute key req now wsgiCallable _ _ _ _ stands =>
      refine ⟨(key, req), by rw [stands]; rfl, ?_⟩
      have left := execute_left parser wsgiCallable server self.locals req
      unfold raisedLines at member
      split at member
      · next error req_ locals raises =>
          obtain rfl := List.mem_singleton.mp member
          rw [raises] at left
          dsimp only at left
          rw [left]
          exact .raised (congrArg Prod.fst raises)
      · cases member

/-- The application logs where there is a request, and what it logs is of that one. -/
theorem step_logs {connected : Bool} (contexted : self.Contexted) (logs : act.logs = true)
    (steps : self.step parser cfg server connected act = some (after, lines))
    : ∃ request,
        self.phase.inHand? = some request ∧ act.LogsLines request.2.context lines := by
  cases act with
  | receive | sendCodeStart | execute | sendResponse | stream | panic => cases logs
  | log level msg tags =>
      simp only [step, Logger.call_eq] at steps
      split at steps
      · next runs =>
          obtain ⟨request, inHand⟩ := inHand_of_calls runs
          refine ⟨request, inHand, ?_⟩
          split at steps
          · next line result =>
              obtain ⟨rfl, rfl⟩ := Prod.mk.inj (Option.some.inj steps)
              refine ⟨?_, fun _ => ?_⟩
              · rintro ⟨tag, member, bad⟩
                exact absurd ((log_ok_iff ..).mp ⟨line, result⟩ tag member) bad
              · obtain ⟨entries, tagged, rfl⟩ := log_contexted contexted inHand result
                exact ⟨entries, tagged, rfl⟩
          · next error result =>
              obtain ⟨rfl, rfl⟩ := Prod.mk.inj (Option.some.inj steps)
              refine ⟨fun _ => rfl, fun fine => ?_⟩
              obtain ⟨line, written⟩ :=
                (log_ok_iff level msg (tags.getD []) self.locals).mpr fine
              cases result.symm.trans written
      · cases steps
  | write error =>
      simp only [step] at steps
      split at steps
      · next runs =>
          obtain ⟨request, inHand⟩ := inHand_of_calls runs
          obtain ⟨rfl, rfl⟩ := Prod.mk.inj (Option.some.inj steps)
          exact ⟨request, inHand, rfl⟩
      · cases steps
  | writelines items =>
      simp only [step] at steps
      split at steps
      · next runs =>
          obtain ⟨request, inHand⟩ := inHand_of_calls runs
          obtain ⟨texts, rest, until_, written, -⟩ := WsgiError.writelines_spec items
          obtain ⟨rfl, rfl⟩ := Prod.mk.inj (Option.some.inj steps)
          exact ⟨request, inHand, texts, rest, until_, by rw [written, List.map_map]; rfl⟩
      · cases steps

end PythonThread

-----------------------------------------------------------------------------------------
-- The lines of a process
-----------------------------------------------------------------------------------------

namespace WorkerProcess

variable {parser : StatusParser} {cfg : Config} {crates : Crates} {bincode : Bincode}
  {self after : WorkerProcess}

/-- The threads have their contexts, and each line tells of a request that one was handed. -/
structure Traced (parser : StatusParser) (cfg : Config) (process : WorkerProcess) : Prop where
  contexted : ∀ thread ∈ process.threads, thread.Contexted
  tells : ∀ item ∈ process.lines, Tells parser cfg.server item.1 item.2
  handed : ∀ item ∈ process.lines, ∃ thread ∈ process.threads, item.1 ∈ thread.handed

theorem traced_new (parser : StatusParser) (cfg : Config) : (new cfg).Traced parser cfg where
  contexted thread member := by
    rw [(List.mem_replicate.mp member).2]
    intro request inHand
    cases inHand
  tells _ member := absurd member List.not_mem_nil
  handed _ member := absurd member List.not_mem_nil

/-- Threads that were handed more, or have ended. -/
theorem Traced.changed (traced : self.Traced parser cfg)
    (change : Nat → PythonThread → PythonThread)
    (threads : ∀ n, after.threads[n]? = (self.threads[n]?).map (change n))
    (contexted : ∀ n thread, thread.Contexted → (change n thread).Contexted)
    (handed : ∀ n thread, thread.handed ⊆ (change n thread).handed)
    (lines : after.lines = self.lines)
    : after.Traced parser cfg where
  contexted thread member := by
    obtain ⟨n, found⟩ := List.mem_iff_getElem?.mp member
    rw [threads] at found
    obtain ⟨earlier, there, rfl⟩ := Option.map_eq_some_iff.mp found
    exact contexted n earlier (traced.contexted earlier (List.mem_of_getElem? there))
  tells := lines ▸ traced.tells
  handed item member := by
    obtain ⟨thread, there, given⟩ := traced.handed item (lines ▸ member)
    obtain ⟨n, found⟩ := List.mem_iff_getElem?.mp there
    refine ⟨change n thread, List.mem_of_getElem? (i := n) ?_, handed n thread given⟩
    rw [threads, found, Option.map_some]

theorem Traced.dieAll (traced : self.Traced parser cfg) (dying : List Nat)
    : (dying.foldl WorkerProcess.die self).Traced parser cfg := by
  induction dying generalizing self with
  | nil => exact traced
  | cons n rest ih =>
      refine ih (traced.changed
        (fun m thread => if n = m then thread.ends else thread) (getElem?_die n) ?_ ?_ rfl)
      · intro m thread contexted
        split
        · exact thread.contexted_ends
        · exact contexted
      · intro m thread
        split <;> exact List.Subset.refl _

theorem Traced.eventDone (traced : self.Traced parser cfg) (io : WorkerEventIo)
    (loop : WorkerLoop)
    : (self.eventDone io loop).Traced parser cfg :=
  traced.changed (fun n thread => thread.handAll (forThread n (self.handed io)))
    (getElem?_eventDone io loop) (fun _ _ contexted => contexted)
    (fun _ _ => List.subset_append_left _ _) rfl

/-- A step of a thread logs of the request it has in hand. -/
theorem Traced.threadStep (traced : self.Traced parser cfg) (crewed : self.Crewed parser cfg)
    {n : Nat} {act : ThreadAct} (taken : self.threadStep parser cfg n act = some after)
    : after.Traced parser cfg := by
  obtain ⟨thread, next, lines, found, steps, rfl⟩ := threadStep_steps taken
  have here := List.mem_of_getElem? found
  have within := (List.getElem?_eq_some_iff.mp found).1
  have contexted := traced.contexted thread here
  have stepped
      : next.Contexted ∧ next.handed = thread.handed
        ∧ ∀ line ∈ lines, ∃ request, thread.phase.inHand? = some request
          ∧ Tells parser cfg.server request line := by
    rcases PythonThread.step_acts steps with ⟨acts, -⟩ | ⟨rfl, rfl, -⟩
    · exact ⟨acts.contexted contexted, handed_acts acts, acts.tells contexted⟩
    · exact ⟨thread.contexted_ends, rfl, fun line none_ => absurd none_ List.not_mem_nil⟩
  obtain ⟨still, same, tells⟩ := stepped
  have keeps {request : Token × HttpRequest}
      (given : ∃ other ∈ self.threads, request ∈ other.handed)
      : ∃ other ∈ self.threads.set n next, request ∈ other.handed := by
    obtain ⟨other, there, given⟩ := given
    obtain ⟨m, at_⟩ := List.mem_iff_getElem?.mp there
    by_cases one : m = n
    · subst one
      obtain rfl := Option.some.inj (at_.symm.trans found)
      exact ⟨next, List.mem_of_getElem? (List.getElem?_set_self within), same ▸ given⟩
    · refine ⟨other, List.mem_of_getElem? (i := m) ?_, given⟩
      rw [List.getElem?_set_ne (Ne.symm one), at_]
  have new {item : (Token × HttpRequest) × ThreadLine}
      (member
        : item ∈ thread.phase.inHand?.toList.flatMap fun request =>
            lines.map fun line => (request, line))
      : thread.phase.inHand? = some item.1 ∧ item.2 ∈ lines := by
    obtain ⟨request, inHand, written⟩ := List.mem_flatMap.mp member
    obtain ⟨line, there, rfl⟩ := List.mem_map.mp written
    exact ⟨Option.mem_toList.mp inHand, there⟩
  constructor
  · intro other member
    rcases List.mem_or_eq_of_mem_set member with was | rfl
    · exact traced.contexted other was
    · exact still
  · intro item member
    rcases List.mem_append.mp member with was | written
    · exact traced.tells item was
    · obtain ⟨inHand, there⟩ := new written
      obtain ⟨request, also, told⟩ := tells item.2 there
      obtain rfl := Option.some.inj (inHand.symm.trans also)
      exact told
  · intro item member
    rcases List.mem_append.mp member with was | written
    · exact keeps (traced.handed item was)
    · obtain ⟨inHand, -⟩ := new written
      exact keeps ⟨thread, here, crewed.inHand found inHand⟩

/-- In every run each line tells of its own request. -/
theorem traced_reach
    (run : Reach (step parser cfg crates bincode) (fun _ _ => True) (.new cfg) self)
    : self.Traced parser cfg := by
  refine run.along (fun process => process.Traced parser cfg) (traced_new parser cfg) ?_
  intro before label after earlier traced _ taken
  cases step_goes taken with
  | @event io loop => exact (traced.eventDone io loop).dieAll _
  | loop => exact ⟨traced.contexted, traced.tells, traced.handed⟩
  | thread stepped => exact traced.threadStep (crewed_reach earlier) stepped

/-- Every line that is logged while requests are served is of a request that a thread was
handed; it has the ids of that request's own context, or it was written to `wsgi.errors` and
has none. A call of the logger writes one line for the request in hand if all its tags may be
logged, and nothing otherwise. Of what is given to `wsgi.errors` a text is one line, and so is
each text in front of the first item that is none.
-/
theorem lines_traced (parser : StatusParser) (cfg : Config) (crates : Crates)
    (bincode : Bincode) (process : WorkerProcess)
    (run : Reach (step parser cfg crates bincode) (fun _ _ => True) (.new cfg) process)
    : (∀ item ∈ process.lines,
          Tells parser cfg.server item.1 item.2
          ∧ ∃ thread ∈ process.threads, item.1 ∈ thread.handed)
      ∧ ∀ n act after,
          act.logs = true →
          process.step parser cfg crates bincode (.thread n act) = some after →
          ∃ thread request lines,
            process.threads[n]? = some thread
            ∧ thread.phase.inHand? = some request
            ∧ after.lines = process.lines ++ lines.map (fun line => (request, line))
            ∧ act.LogsLines request.2.context lines := by
  have traced : process.Traced parser cfg := traced_reach run
  refine ⟨fun item member => ⟨traced.tells item member, traced.handed item member⟩, ?_⟩
  intro n act after logs taken
  obtain ⟨thread, next, lines, found, steps, rfl⟩ := threadStep_steps taken
  have contexted := traced.contexted thread (List.mem_of_getElem? found)
  obtain ⟨request, inHand, written⟩ := PythonThread.step_logs contexted logs steps
  refine ⟨thread, request, lines, found, inHand, ?_, written⟩
  dsimp only
  rw [inHand, Option.toList_some, List.flatMap_singleton]

theorem lines_traced_serving
    : ∃ process : WorkerProcess,
        process.lines.map Prod.fst
          = List.replicate 4 (5, { rootRequest with context := ⟨"", "", none⟩ })
        ∧ ∀ item ∈ process.lines,
            Tells .ok (Config.server (.default "casket")) item.1 item.2 := by
  obtain ⟨process, run, served⟩ := serving_served
  refine ⟨process, served.2.2.2.2.2.2.2.1, fun item member => ?_⟩
  exact ((lines_traced _ _ _ _ process run).1 item member).1

end WorkerProcess
end Casket
