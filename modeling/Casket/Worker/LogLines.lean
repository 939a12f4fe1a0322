import Casket.Worker.Custody
import Casket.Worker.ReaderRuns
import Casket.Worker.Stops

/-! The lines a worker logs about its requests. A line is logged in the step that tells the
server of the request's end, by some of the endings only.
-/

namespace Casket

open Lib

-----------------------------------------------------------------------------------------
-- Sessions
-----------------------------------------------------------------------------------------

/-- What happened to a token since the server was last told of it. -/
structure Session where
  bytes : Nat
  lines : Nat
  deriving DecidableEq, Repr

namespace Session

def next (tk : Token) (session : Session) : WorkerEffect → Session
  | .read other size =>
      if other = tk then { session with bytes := session.bytes + size } else session
  | .logged other _ =>
      if other = tk then { session with lines := session.lines + 1 } else session
  | .answered _ response => if response.token = tk then ⟨0, 0⟩ else session
  | _ => session

/-- The session of a token that is open after a trace. -/
def of (trace : List WorkerEffect) (tk : Token) : Session := trace.foldl (next tk) ⟨0, 0⟩

theorem of_append (trace effects : List WorkerEffect) (tk : Token)
    : of (trace ++ effects) tk = effects.foldl (next tk) (of trace tk) :=
  List.foldl_append

end Session

deriving instance DecidableEq for WorkerEffect

/-- The server is told of a token. -/
def WorkerEffect.answers : WorkerEffect → Bool
  | .answered _ _ => true
  | _ => false

/-- Nothing is logged by an effect, and the server is told of nothing. -/
def WorkerEffect.quiet : WorkerEffect → Bool
  | .logged _ _ => false
  | .answered _ _ => false
  | _ => true

/-- Quiet effects log no line, by induction. -/
theorem Session.lines_quiet {effects : List WorkerEffect}
    (quiet : ∀ effect ∈ effects, effect.quiet = true) (session : Session) (tk : Token)
    : (effects.foldl (Session.next tk) session).lines = session.lines := by
  induction effects generalizing session with
  | nil => rfl
  | cons effect rest ih =>
      rw [List.foldl_cons, ih fun other member => quiet other (List.mem_cons_of_mem _ member)]
      have here := quiet effect List.mem_cons_self
      cases effect with
      | logged | answered => cases here
      | read => simp only [Session.next]; split <;> rfl
      | _ => rfl

/-- The lines the documentation promises for an attempted request. -/
def promised (cfg : Config) : Ending → Nat
  | .doneWrite => if cfg.logResponse then 1 else 0
  | _ => 1

/-- Whenever the server was told of a token on whose stream bytes were received, the promised
lines had been logged.
-/
def LogsEach (cfg : Config) (trace : List WorkerEffect) : Prop :=
  ∀ before ending response later,
    trace = before ++ .answered ending response :: later →
    0 < (Session.of before response.token).bytes →
    (Session.of before response.token).lines = promised cfg ending

theorem logsEach_nil (cfg : Config) : LogsEach cfg [] := by
  intro before ending response later split
  exact absurd split (List.nil_eq_append_iff.not.mpr (by rintro ⟨-, none⟩; cases none))

/-- Effects that tell the server nothing add nothing to check. -/
theorem logsEach_append_silent {cfg : Config} {trace effects : List WorkerEffect}
    (silent : ∀ effect ∈ effects, effect.answers = false)
    : LogsEach cfg (trace ++ effects) ↔ LogsEach cfg trace := by
  constructor
  · intro each before ending response later split
    refine each before ending response (later ++ effects) ?_
    rw [split, List.append_assoc, List.cons_append]
  · intro each before ending response later split
    rcases List.append_eq_append_iff.mp split with ⟨more, -, added⟩ | ⟨rest, old, added⟩
    · have told :=
        silent (.answered ending response) (added ▸ List.mem_append_right _ List.mem_cons_self)
      cases told
    · cases rest with
      | nil =>
          rw [List.nil_append] at added
          have told := silent (.answered ending response) (added ▸ List.mem_cons_self)
          cases told
      | cons first rest =>
          obtain ⟨rfl, -⟩ := List.cons.inj added
          exact each before ending response rest old

/-- An answer has to meet the promise itself. -/
theorem logsEach_append_answered {cfg : Config} {trace : List WorkerEffect} {ending : Ending}
    {response : Response}
    : LogsEach cfg (trace ++ [.answered ending response])
      ↔ LogsEach cfg trace
        ∧ (0 < (Session.of trace response.token).bytes →
          (Session.of trace response.token).lines = promised cfg ending) := by
  constructor
  · intro each
    refine ⟨?_, each trace ending response [] rfl⟩
    intro before other told later split
    refine each before other told (later ++ [.answered ending response]) ?_
    rw [split, List.append_assoc, List.cons_append]
  · rintro ⟨each, last⟩ before other told later split
    rcases List.append_eq_append_iff.mp split with ⟨more, whole, added⟩ | ⟨rest, old, added⟩
    · cases more with
      | nil =>
          obtain ⟨same, -⟩ := List.cons.inj added
          obtain ⟨rfl, rfl⟩ := WorkerEffect.answered.inj same
          rw [whole, List.append_nil]
          exact last
      | cons first more =>
          have short := congrArg List.length added
          simp at short
    · cases rest with
      | nil =>
          obtain ⟨same, -⟩ := List.cons.inj added
          obtain ⟨rfl, rfl⟩ := WorkerEffect.answered.inj same
          rw [List.append_nil] at old
          exact old ▸ last
      | cons first rest =>
          obtain ⟨rfl, -⟩ := List.cons.inj added
          exact each before other told rest old

-----------------------------------------------------------------------------------------
-- The endings that do not log what is promised
-----------------------------------------------------------------------------------------

/-- The token a handled result would tell the server of without the promised lines. -/
def ActionResult.mislogs (cfg : Config) : ActionResult → Except IoError Unit → Option Token
  | .error _, _ => none
  | .ok (.serverPythonCodeTimeoutNew _ _), _ => none
  | .ok (.serverNewResponse tk _), .error _ => some tk
  | .ok (.serverNewResponse _ _), .ok () => none
  | .ok (.serverDoneWrite tk _ _), .ok () => if cfg.logResponse then none else some tk
  | .ok (.serverDoneWrite _ _ _), .error _ => none
  | .ok (.serverStreamEOF tk _), _ => some tk
  | .ok act, .error _ => (ActionResult.held? (.ok act)).map Prod.fst
  | .ok _, .ok () => none

namespace WorkerLoop

/-- The token whose session the next result would end without the promised lines. -/
def mislogs (cfg : Config) (self : WorkerLoop) : WorkerInput → Option Token
  | .action result _ => self.phase.nextResult.bind fun next => next.1.mislogs cfg result
  | _ => none

/-- No byte was received in a session that would end without the promised lines. -/
def LogsOne (cfg : Config) (self : WorkerLoop) (input : WorkerInput) : Prop :=
  ∀ tk ∈ self.mislogs cfg input, (Session.of self.trace tk).bytes = 0

instance (cfg : Config) (self : WorkerLoop) (input : WorkerInput)
    : Decidable (self.LogsOne cfg input) :=
  Option.decidableForallMem (self.mislogs cfg input)

variable {cfg : Config} {crates : Crates} {bincode : Bincode} {self after : WorkerLoop}
  {input : WorkerInput}

/-- What a step adds to the trace: nothing that counts, or the end of a session with the
lines logged for it.
-/
inductive Logs (cfg : Config) (self : WorkerLoop) (input : WorkerInput) (after : WorkerLoop)
    : Prop
  | quiet (effects : List WorkerEffect) (trace : after.trace = self.trace ++ effects)
    (quiet : ∀ effect ∈ effects, effect.quiet = true) (none : self.mislogs cfg input = none)
  | ended (lines : List WorkerEffect) (ending : Ending) (response : Response)
    (gone : WorkerEffect)
    (trace : after.trace = self.trace ++ (lines ++ [.answered ending response, gone]))
    (logged : lines = [] ∨ ∃ message, lines = [.logged response.token message])
    (silent : gone.quiet = true)
    (fits : lines.length = promised cfg ending ↔ self.mislogs cfg input = none)
    (own : ∀ tk ∈ self.mislogs cfg input, tk = response.token)

/-- An insertion logs nothing. -/
theorem replacing_quiet (tk : Token) (replaced : Option TcpStream)
    : ∀ effect ∈ replacing tk replaced, effect.quiet = true := by
  cases replaced with
  | none => nofun
  | some tcpStream =>
      intro effect member
      obtain rfl := List.mem_singleton.mp member
      rfl

/-- Each end of a held stream logs one line or none. -/
theorem Ends.logs {res : ActionResult} {result : Except IoError Unit}
    {lines : List WorkerEffect} {ending : Ending} {gone : WorkerEffect} {tk : Token}
    {tcpStream : TcpStream} (held : res.held? = some (tk, tcpStream))
    (ends : res.Ends result lines ending gone)
    : (lines = [] ∨ ∃ message, lines = [.logged tk message])
      ∧ (lines.length = promised cfg ending ↔ res.mislogs cfg result = none)
      ∧ (∀ other ∈ res.mislogs cfg result, other = tk)
      ∧ gone.quiet = true := by
  cases ends with
  | failed silent =>
      have misses : res.mislogs cfg (.error ‹_›) = some tk := by
        cases res with
        | error error => cases silent
        | ok act =>
            cases act with
            | serverDoneWrite => cases silent
            | serverNewResponse | serverPythonCodeTimeoutNew => cases held
            | _ =>
                obtain ⟨rfl, rfl⟩ := Prod.mk.inj (Option.some.inj held)
                rfl
      refine ⟨.inl rfl, ?_, ?_, rfl⟩
      · rw [misses]
        exact ⟨nofun, nofun⟩
      · rw [misses]
        exact fun other same => (Option.some.inj same).symm
  | unwritten =>
      obtain ⟨rfl, rfl⟩ := Prod.mk.inj (Option.some.inj held)
      exact ⟨.inr ⟨_, rfl⟩, ⟨fun _ => rfl, fun _ => rfl⟩, nofun, rfl⟩
  | streamEOF =>
      obtain ⟨rfl, rfl⟩ := Prod.mk.inj (Option.some.inj held)
      exact ⟨.inl rfl, ⟨nofun, nofun⟩, fun other same => (Option.some.inj same).symm, rfl⟩
  | doneWrite =>
      obtain ⟨rfl, rfl⟩ := Prod.mk.inj (Option.some.inj held)
      refine ⟨.inr ⟨_, rfl⟩, ?_, ?_, rfl⟩
      · cases logs : cfg.logResponse <;> simp [promised, ActionResult.mislogs, logs]
      · cases logs : cfg.logResponse <;> simp [ActionResult.mislogs, logs]
  | casketDone =>
      obtain ⟨rfl, rfl⟩ := Prod.mk.inj (Option.some.inj held)
      exact ⟨.inr ⟨_, rfl⟩, ⟨fun _ => rfl, fun _ => rfl⟩, nofun, rfl⟩
  | error told =>
      obtain ⟨rfl, rfl⟩ := Prod.mk.inj (Option.some.inj held)
      refine ⟨.inr ⟨_, rfl⟩, ⟨fun _ => rfl, fun _ => ?_⟩, nofun, rfl⟩
      rcases told with ⟨rfl, -⟩ | ⟨-, rfl | rfl⟩ <;> rfl

/-- A handled result ends a session or logs nothing. -/
theorem Settles.logs {res : ActionResult} {phase : WorkerPhase} {result : Except IoError Unit}
    {now : SystemTime} (popped : self.phase.nextResult = some (res, phase))
    (settles : { self with phase }.Settles bincode res result after)
    : self.Logs cfg (.action result now) after := by
  have missed : self.mislogs cfg (.action result now) = res.mislogs cfg result := by
    rw [mislogs, popped]
    rfl
  cases settles with
  | answered held ends _ _ responded =>
      obtain ⟨-, token, -⟩ := respond_inv responded
      obtain ⟨logged, fits, own, silent⟩ := Ends.logs held ends
      exact .ended _ _ _ _ rfl (token ▸ logged) silent (missed ▸ fits) (token ▸ missed ▸ own)
  | lost _ _ responded =>
      obtain ⟨-, token, -⟩ := respond_inv responded
      refine .ended [] _ _ _ rfl (.inl rfl) rfl ?_ ?_
      · rw [missed]
        exact ⟨nofun, nofun⟩
      · rw [missed, token]
        exact fun other same => (Option.some.inj same).symm
  | started => exact .quiet [] (List.append_nil _).symm nofun missed
  | casket is =>
      rcases is with rfl | rfl
      · exact .quiet _ rfl (replacing_quiet _ _) missed
      · exact .quiet _ rfl (replacing_quiet _ _) missed
  | _ => exact .quiet _ rfl (replacing_quiet _ _) missed

theorem quiet_map {ι : Type} (effect : ι → WorkerEffect)
    (quiet : ∀ item, (effect item).quiet = true) (list : List ι)
    : ∀ other ∈ list.map effect, other.quiet = true :=
  List.forall_mem_map.mpr fun item _ => quiet item

/-- An event logs nothing. -/
theorem Delivers.quiet {tk : Token} {ev : Event}
    (delivers : self.Delivers cfg bincode tk ev after)
    : ∃ effects,
        after.trace = self.trace ++ effects ∧ ∀ effect ∈ effects, effect.quiet = true := by
  have one {effect : WorkerEffect} (quiet : effect.quiet = true)
      : ∀ other ∈ [effect], other.quiet = true :=
    fun other member => List.mem_singleton.mp member ▸ quiet
  cases delivers with
  | ctrlC => exact ⟨[], (List.append_nil _).symm, nofun⟩
  | unixStreamRead => exact ⟨_, rfl, one rfl⟩
  | unixStreamWrite => exact ⟨_, rfl, one rfl⟩
  | refused => exact ⟨[], (List.append_nil _).symm, nofun⟩
  | newStreamFd => exact ⟨[], (List.append_nil _).symm, nofun⟩
  | serverStreamRead => exact ⟨_, rfl, one rfl⟩
  | queuedRequests => exact ⟨_, rfl, quiet_map _ (fun _ => rfl) _⟩
  | pollPythonResponses =>
      refine ⟨_, rfl, List.forall_mem_append.mpr ⟨?_, ?_⟩⟩
      · exact quiet_map _ (fun _ => rfl) _
      · exact quiet_map _ (fun _ => rfl) _
  | serverStreamWrite => exact ⟨_, rfl, one rfl⟩
  | requestReadTimeout => exact ⟨[], (List.append_nil _).symm, nofun⟩
  | casketResponseWrite => exact ⟨_, rfl, one rfl⟩
  | pythonCodeTimeout => exact ⟨[], (List.append_nil _).symm, nofun⟩

/-- What any step adds to the trace. -/
theorem Takes.logs (takes : self.Takes cfg bincode input after)
    : self.Logs cfg input after := by
  cases takes with
  | top _ goes =>
      rw [loopTop_goes goes rfl]
      exact .quiet _ rfl (quiet_map _ (fun _ => rfl) _) rfl
  | event _ delivers =>
      obtain ⟨effects, trace, quiet⟩ := delivers.quiet
      exact .quiet effects trace quiet rfl
  | timeout _ expires =>
      cases expires with
      | stale => exact .quiet [] (List.append_nil _).symm nofun rfl
      | requestRead => exact .quiet [] (List.append_nil _).symm nofun rfl
      | pythonCode =>
          refine .quiet _ rfl ?_ rfl
          exact fun effect member => List.mem_singleton.mp member ▸ rfl
  | result popped settles => exact settles.logs popped
  | _ => exact .quiet [] (List.append_nil _).symm nofun rfl

-----------------------------------------------------------------------------------------
-- Every run
-----------------------------------------------------------------------------------------

/-- Between two steps no open session has a line. -/
def Unlogged (state : WorkerLoop) : Prop := ∀ tk, (Session.of state.trace tk).lines = 0

/-- The lines logged on the way to an answer are those of the answered session. -/
theorem of_logged {trace lines : List WorkerEffect} {tk : Token}
    (logged : lines = [] ∨ ∃ message, lines = [.logged tk message]) (other : Token)
    : Session.of (trace ++ lines) other
      = if tk = other then
          { Session.of trace other with
            lines := (Session.of trace other).lines + lines.length }
        else
          Session.of trace other := by
  rcases logged with rfl | ⟨message, rfl⟩
  · rw [List.append_nil]
    split <;> rfl
  · exact Session.of_append trace _ other

/-- A step closes at most one session, which has the promised lines exactly if the step logs
what is promised or no byte was received.
-/
theorem Logs.each (logs : self.Logs cfg input after) (unlogged : self.Unlogged)
    : after.Unlogged
      ∧ (LogsEach cfg self.trace → (LogsEach cfg after.trace ↔ self.LogsOne cfg input)) := by
  cases logs with
  | quiet effects trace quiet none =>
      constructor
      · intro tk
        rw [trace, Session.of_append, Session.lines_quiet quiet]
        exact unlogged tk
      · intro each
        have silent : ∀ effect ∈ effects, effect.answers = false := by
          intro effect member
          have is := quiet effect member
          cases effect <;> first | rfl | cases is
        rw [trace, logsEach_append_silent silent]
        refine ⟨fun _ => ?_, fun _ => each⟩
        rw [LogsOne, none]
        exact nofun
  | ended lines ending response gone trace logged silent fits own =>
      have whole
          : after.trace = self.trace ++ lines ++ [.answered ending response] ++ [gone] := by
        rw [trace]
        simp
      constructor
      · intro tk
        rw [whole, Session.of_append, Session.lines_quiet, Session.of_append]
        · simp only [List.foldl_cons, List.foldl_nil, Session.next]
          split
          · rfl
          · next other =>
              rw [of_logged logged, if_neg other]
              exact unlogged tk
        · exact fun effect member => List.mem_singleton.mp member ▸ silent
      · intro each
        have unanswered : ∀ effect ∈ lines, effect.answers = false := by
          rcases logged with rfl | ⟨message, rfl⟩
          · nofun
          · exact fun effect member => List.mem_singleton.mp member ▸ rfl
        have quietly : ∀ effect ∈ [gone], effect.answers = false := by
          intro effect member
          obtain rfl := List.mem_singleton.mp member
          cases effect <;> first | rfl | cases silent
        rw [whole, logsEach_append_silent quietly, logsEach_append_answered,
          logsEach_append_silent unanswered, of_logged logged, if_pos rfl,
          unlogged response.token, Nat.zero_add]
        dsimp only
        constructor
        · rintro ⟨-, promise⟩ tk missed
          obtain rfl := own tk missed
          refine Nat.eq_zero_of_not_pos fun some => ?_
          rw [fits.mp (promise some)] at missed
          cases missed
        · intro one
          refine ⟨each, fun some => fits.mpr ?_⟩
          cases missed : self.mislogs cfg input with
          | none => rfl
          | some tk =>
              obtain rfl := own tk missed
              exact absurd (one _ missed) some.ne'

/-- Whenever the server is told of a token whose stream sent bytes, the promised lines have
been logged, in every run in which no session with bytes ends without them; and the first
such end breaks the promise. Witness: a line is logged in the step that tells the server.
-/
theorem one_line_each (cfg : Config) (crates : Crates) (bincode : Bincode)
    : (∀ state,
        Reach (step cfg crates bincode) (LogsOne cfg) (.new cfg) state →
        LogsEach cfg state.trace)
      ∧ ∀ before input after,
          Reach (step cfg crates bincode) (fun _ _ => True) (.new cfg) before →
          LogsEach cfg before.trace → step cfg crates bincode before input = some after →
          after.phase.running = true →
          (LogsEach cfg after.trace ↔ before.LogsOne cfg input) := by
  have unlogged {guard : WorkerLoop → WorkerInput → Prop} {state : WorkerLoop}
      (run : Reach (step cfg crates bincode) guard (.new cfg) state)
      (runs : state.phase.running = true)
      : state.Unlogged := by
    refine running_reach Unlogged (fun _ => rfl) ?_ run runs
    intro before input after earlier _ takes
    exact (takes.logs.each earlier).1
  constructor
  · intro state run
    induction run with
    | start => exact logsEach_nil cfg
    | @next before input after earlier allowed taken ih =>
        cases goes : after.phase.running with
        | true =>
            have takes := step_takes taken goes
            have opened := unlogged earlier takes.runs
            exact ((takes.logs.each opened).2 ih).mpr allowed
        | false =>
            cases runs : before.phase.running with
            | true =>
                obtain ⟨effects, trace, passes⟩ := (step_stops taken runs goes).2.trace
                rw [trace]
                refine (logsEach_append_silent fun effect member => ?_).mpr ih
                have quietly := passes effect member
                cases effect <;> first | rfl | exact quietly.elim
            | false =>
                rw [(step_ended taken runs).2.2]
                exact ih
  · intro before input after run each taken goes
    have takes := step_takes taken goes
    exact (takes.logs.each (unlogged run takes.runs)).2 each

/-- A stream arrives, and its reads return some bytes, one read in each turn. -/
def readingTurns (reads : List Bytes) : List WorkerInput :=
  WorkerInput.accepting .fixint 0 [⟨5, 7⟩] [9]
  ++ reads.flatMap fun data =>
      WorkerInput.turn 0 [] [⟨5, true, false⟩]
        [{ WorkerEventIo.quiet with read := .ok data }] 1 0 0

/-- A malformed request is answered with its line. -/
theorem one_line_each_malformed
    : ∃ state : WorkerLoop,
        state.trace
          = [.dequeued [9], .received 5 9, .read 5 1,
              .logged 5 "failed to parse http header",
              .answered .badClient ⟨5, 7, false, some "badly formed client request"⟩,
              .closed 5 ⟨9⟩]
        ∧ LogsEach (.default "casket") state.trace := by
  have runs
      : (exec (step (.default "casket") (.onHead "0") .fixint) (LogsOne (.default "casket"))
          (.new (.default "casket")) (readingTurns [[88]])).map (·.trace)
        = some
            [.dequeued [9], .received 5 9, .read 5 1,
              .logged 5 "failed to parse http header",
              .answered .badClient ⟨5, 7, false, some "badly formed client request"⟩,
              .closed 5 ⟨9⟩] := by
    decide +kernel
  obtain ⟨state, done, out⟩ := Option.map_eq_some_iff.mp runs
  have logs := one_line_each (.default "casket") (.onHead "0") .fixint
  exact ⟨state, out, logs.1 state (Reach.of_exec _ done)⟩

/-- A client sends the first ten bytes of a head and closes: the server is told, and nothing
was logged.
-/
theorem eof_unlogged
    : ∃ state : WorkerLoop,
        Reach (step (.default "casket") (.onHead "0") .fixint) (fun _ _ => True)
          (.new (.default "casket")) state
        ∧ state.trace
          = [.dequeued [9], .received 5 9, .read 5 10, .read 5 0,
              .answered .streamEOF ⟨5, 7, false, none⟩, .released 5 ⟨9⟩]
        ∧ ¬ LogsEach (.default "casket") state.trace := by
  have runs
      : (exec (step (.default "casket") (.onHead "0") .fixint) (fun _ _ => True)
          (.new (.default "casket")) (readingTurns [(headOf "0").take 10, []])).map (·.trace)
        = some
            [.dequeued [9], .received 5 9, .read 5 10, .read 5 0,
              .answered .streamEOF ⟨5, 7, false, none⟩, .released 5 ⟨9⟩] := by
    decide +kernel
  obtain ⟨state, done, out⟩ := Option.map_eq_some_iff.mp runs
  refine ⟨state, Reach.of_exec _ done, out, ?_⟩
  rw [out]
  intro each
  have promise := each _ .streamEOF ⟨5, 7, false, none⟩ [.released 5 ⟨9⟩]
    (show _ = [.dequeued [9], .received 5 9, .read 5 10, .read 5 0] ++ _ from rfl)
  exact absurd (promise (by decide)) (by decide)

end WorkerLoop
end Casket
