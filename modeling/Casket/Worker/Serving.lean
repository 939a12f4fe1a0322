import Casket.Worker.Exclusive
import Casket.Worker.Portions

/-! What a worker process does for its clients, in every run of its loop and its threads in
any order.
-/

namespace Casket

open Lib

/-- The token an effect reports as written to its end. -/
def WorkerEffect.finished? : WorkerEffect → Option Token
  | .answered .doneWrite response => some response.token
  | _ => none

namespace WorkerProcess

variable {parser : StatusParser} {cfg : Config} {crates : Crates} {bincode : Bincode}
  {process : WorkerProcess}

-----------------------------------------------------------------------------------------
-- A run that is served
-----------------------------------------------------------------------------------------

/-- Two requests are handed to two threads. One of them is answered with a body of one chunk,
and its application logs a line and writes three to `wsgi.errors`; the other's thread panics.
-/
def serving : List ProcessInput :=
  let read : WorkerEventIo := { WorkerEventIo.quiet with read := .ok (headOf "0") }
  let send : WorkerEventIo := { WorkerEventIo.quiet with alive := [[0, 1], [0, 1]] }
  let poll : WorkerEventIo := WorkerLoop.found 0 0
  (WorkerInput.accepting .fixint 0 [⟨5, 7⟩, ⟨6, 8⟩] [9, 10]
      ++ WorkerInput.turn 0 [] [⟨5, true, false⟩, ⟨6, true, false⟩] [read, read] 2 0 0
      ++ WorkerInput.turn 0 [] [] [send] 0 0 0).map .loop
  ++ [.thread 1 .receive, .thread 0 .receive, .thread 1 (.sendCodeStart 0),
    .thread 1 (.log .info "serving" none), .thread 1 (.write "slow"),
    .thread 1 (.writelines [some (.str (some "a")), some (.str (some "b")), some (.int 0)]),
    .thread 1 (.execute (yields [.pair "Content-Length" "2"] [104, 105])),
    .thread 1 .sendResponse, .thread 0 .panic]
  ++ (WorkerInput.turn 0 [] [] [WorkerLoop.found 1 1] 2 0 0).map .loop
  ++ [.thread 1 .stream, .thread 1 .stream]
  ++ (WorkerInput.turn 0 [] [⟨5, false, true⟩]
          [poll, { poll with write := .ok 60 }] 1 0 0
      ++ WorkerInput.turn 0 [] [⟨5, false, true⟩]
          [poll, { poll with write := .ok 34 }] 1 0 0).map .loop

/-- What is seen of it in the end. -/
def Served (process : WorkerProcess) : Prop :=
  (total WorkerEffect.came process.loop.trace).map Prod.fst = {5, 6}
  ∧ total WorkerEffect.sends process.loop.trace = {5, 6}
  ∧ process.living = [1]
  ∧ process.loop.pool.outstanding = [(0, 6)]
  ∧ process.answered.map Job.key = [5]
  ∧ (process.accepted 5).length = 94
  ∧ (∀ text ∈ refusals, ¬ process.accepted 5 <+: text)
  ∧ process.lines.map Prod.fst
      = List.replicate 4 (5, { rootRequest with context := ⟨"", "", none⟩ })
  ∧ ∃ effect ∈ process.loop.trace, effect.finished? = some 5

instance (process : WorkerProcess) : Decidable process.Served :=
  inferInstanceAs (Decidable (_ ∧ _))

theorem serving_served
    : ∃ process : WorkerProcess,
        Reach (step .ok (.default "casket") (.onHead "0") .fixint) (fun _ _ => True)
          (.new (.default "casket")) process
        ∧ process.Served := by
  have runs
      : ((exec (step .ok (.default "casket") (.onHead "0") .fixint) (fun _ _ => True)
          (.new (.default "casket")) serving).any fun process => decide process.Served)
        = true := by
    decide +kernel
  obtain ⟨process, done, served⟩ := (Option.any_eq_true _ _).mp runs
  exact ⟨process, Reach.of_exec _ done, of_decide_eq_true served⟩

-----------------------------------------------------------------------------------------
-- The loop and its threads
-----------------------------------------------------------------------------------------

/-- Whatever the threads of a process do, its loop runs as it does with threads of which only
the worker's view is known; and while it runs that view is right: which threads there are, and
what each of them is still to answer, in that order.
-/
theorem process_refines (parser : StatusParser) (cfg : Config) (crates : Crates)
    (bincode : Bincode) (process : WorkerProcess)
    (run : Reach (step parser cfg crates bincode) (fun _ _ => True) (.new cfg) process)
    : Reach (WorkerLoop.step cfg crates bincode) (fun _ _ => True) (.new cfg) process.loop
      ∧ (process.loop.phase.running = true →
        process.loop.pool.alive.Nodup
        ∧ (∀ n, n ∈ process.loop.pool.alive ↔ n ∈ process.living)
        ∧ ∀ (n : Nat) (thread : PythonThread),
            process.threads[n]? = some thread →
            thread.phase.alive = true →
            forThread n process.loop.pool.outstanding = thread.unanswered) := by
  obtain ⟨reached, manned⟩ := manned_reach run
  refine ⟨reached, fun runs => ?_⟩
  exact ⟨(manned runs).once, (manned runs).alive, (manned runs).unanswered⟩

theorem process_refines_serving
    : ∃ process : WorkerProcess,
        process.Served
        ∧ Reach (WorkerLoop.step (.default "casket") (.onHead "0") .fixint) (fun _ _ => True)
          (.new (.default "casket")) process.loop := by
  obtain ⟨process, run, served⟩ := serving_served
  exact ⟨process, served, (process_refines _ _ _ _ process run).1⟩

/-- Every request that was sent was handed to one thread, once. A thread that has not ended
has served what it was handed in that order and up to the request it has in hand: for each
request before it sent one code start, ran its application, sent the response to it and
streamed its body, and the application found the context of that request; and it has come as
far with the request in hand as its phase says.
-/
theorem threads_serve (parser : StatusParser) (cfg : Config) (crates : Crates)
    (bincode : Bincode) (process : WorkerProcess)
    (run : Reach (step parser cfg crates bincode) (fun _ _ => True) (.new cfg) process)
    : process.threads.length = cfg.numThreads
      ∧ PythonThread.handedKeys process.threads
        = total WorkerEffect.sends process.loop.trace
      ∧ ∀ (n : Nat) (thread : PythonThread),
          process.threads[n]? = some thread →
          thread.phase.alive = true →
          ∃ jobs blocks locals events,
            thread.handed
              = jobs.map PythonThread.ofJob ++ (thread.phase.inHand?.toList ++ thread.recv)
            ∧ thread.seen = blocks.flatten ++ events
            ∧ List.Forall₂ (fun job block => job.Seen parser cfg cfg.server block) jobs
              blocks
            ∧ PythonThread.Progress parser cfg cfg.server locals thread.phase thread.locals
              events := by
  have crewed := crewed_reach run
  refine ⟨crewed.count, crewed.handed, fun n thread found lives => ?_⟩
  obtain ⟨jobs, blocks, locals, events, runs⟩ := crewed.runs n thread found lives
  exact ⟨jobs, blocks, locals, events, runs.handed, runs.seen, runs.serves.seen runs.alive,
    runs.progress⟩

theorem threads_serve_serving
    : ∃ process : WorkerProcess,
        process.Served ∧ PythonThread.handedKeys process.threads = {5, 6} := by
  obtain ⟨process, run, served⟩ := serving_served
  have handed := (threads_serve _ _ _ _ process run).2.1
  exact ⟨process, served, handed.trans served.2.1⟩

-----------------------------------------------------------------------------------------
-- The clients and their answers
-----------------------------------------------------------------------------------------

/-- Where no token came twice, a write went to the one stream received under its token. -/
theorem received_iff
    (run : Reach (step parser cfg crates bincode) (fun _ _ => True) (.new cfg) process)
    (distinct : ((total WorkerEffect.came process.loop.trace).map Prod.fst).Nodup)
    {tk : Token} (tcpStream : TcpStream) (bytes : Bytes)
    (written : (tk, tcpStream, bytes) ∈ process.writes) (received : TcpStream)
    : (tk, received) ∈ total WorkerEffect.came process.loop.trace ↔ received = tcpStream := by
  have there : (tk, tcpStream) ∈ total WorkerEffect.came process.loop.trace :=
    writes_reach run _ written
  constructor
  · intro other
    exact (Prod.mk.inj (Multiset.inj_on_of_nodup_map distinct _ other _ there rfl)).2
  · rintro rfl
    exact there

/-- What was written under a token went to the stream that was received under it. Every client
has accepted the front of a casket response, or of the response that the application gave to
the one request that was read from it: a head, and the chunks of the first turns of its own
iterator.
-/
theorem clients_own (parser : StatusParser) (cfg : Config) (crates : Crates)
    (bincode : Bincode) (process : WorkerProcess)
    (run : Reach (step parser cfg crates bincode) (fun _ _ => True) (.new cfg) process)
    (distinct : ((total WorkerEffect.came process.loop.trace).map Prod.fst).Nodup) (tk : Token)
    : (∀ tcpStream bytes,
          (tk, tcpStream, bytes) ∈ process.writes →
          ∀ received,
            (tk, received) ∈ total WorkerEffect.came process.loop.trace ↔ received = tcpStream)
      ∧ ((∃ text ∈ refusals, process.accepted tk <+: text)
        ∨ ∃ job ∈ process.answered,
            job.key = tk
            ∧ (∀ httpReq, (tk, httpReq) ∈ process.read ↔ httpReq = job.req)
            ∧ process.accepted tk
              <+: (job.response parser cfg cfg.server).writeHeader
                ++ (process.yielded tk).flatten
            ∧ ∃ sender,
                (job.executed parser cfg cfg.server).2.1.Turns (process.yielded tk)
                  sender) := by
  obtain ⟨kept, -⟩ := portions_reach run distinct
  refine ⟨received_iff run distinct, ?_⟩
  cases kept.owns tk with
  | refused is front => exact .inl ⟨_, is, front⟩
  | @answered job known key front =>
      subst key
      have read := kept.answered job known
      obtain ⟨sender, turns, -⟩ := (bodied_reach run distinct).ended job known
      refine .inr ⟨job, known, rfl, fun httpReq => ?_, front, sender, turns⟩
      constructor
      · intro other
        exact (Prod.mk.inj (List.inj_on_of_nodup_map kept.once other read rfl)).2
      · rintro rfl
        exact read

theorem clients_own_serving
    : ∃ (process : WorkerProcess) (job : Job),
        (process.accepted 5).length = 94
        ∧ job.key = 5
        ∧ process.accepted 5
          <+: (job.response .ok (.default "casket") (Config.server (.default "casket"))).writeHeader
            ++ (process.yielded 5).flatten := by
  obtain ⟨process, run, served⟩ := serving_served
  have distinct : ((total WorkerEffect.came process.loop.trace).map Prod.fst).Nodup := by
    rw [served.1]
    decide
  have size := served.2.2.2.2.2.1
  rcases (clients_own _ _ _ _ process run distinct 5).2 with ⟨text, is, front⟩ | owns
  · exact absurd front (served.2.2.2.2.2.2.1 text is)
  · obtain ⟨job, -, key, -, front, -⟩ := owns
    exact ⟨process, job, size, key, front⟩

/-- A client whose response is reported as written has accepted all of it: the whole head,
and all that the application's iterator sent up to its end, if its thread did not die before
that. One that was refused has accepted a whole casket response. It was written to the stream
that was received under the token.
-/
theorem answers_whole (parser : StatusParser) (cfg : Config) (crates : Crates)
    (bincode : Bincode) (process : WorkerProcess)
    (run : Reach (step parser cfg crates bincode) (fun _ _ => True) (.new cfg) process)
    (distinct : ((total WorkerEffect.came process.loop.trace).map Prod.fst).Nodup)
    (response : Response)
    : (∀ tcpStream bytes,
          (response.token, tcpStream, bytes) ∈ process.writes →
          ∀ received,
            (response.token, received) ∈ total WorkerEffect.came process.loop.trace
            ↔ received = tcpStream)
      ∧ (.answered .doneWrite response ∈ process.loop.trace →
        ∃ job ∈ process.answered,
          job.key = response.token
          ∧ process.accepted response.token
            = (job.response parser cfg cfg.server).writeHeader
              ++ (process.yielded response.token).flatten
          ∧ ((job.executed parser cfg cfg.server).2.1.Streams
                (process.yielded response.token)
            ∨ response.token ∈ process.cut))
      ∧ (.answered .casketResponse response ∈ process.loop.trace →
        process.accepted response.token ∈ refusals) := by
  obtain ⟨kept, -⟩ := portions_reach run distinct
  refine ⟨received_iff run distinct, fun told => ?_, kept.refused response⟩
  obtain ⟨job, known, key, accepted, gone⟩ := kept.done response told
  obtain ⟨sender, turns, ends⟩ := (bodied_reach run distinct).ended job known
  rw [key] at turns ends
  refine ⟨job, known, key, ?_, ?_⟩
  · rw [accepted, whole, key]
  · exact (ends gone).symm.imp_left turns.streamed

theorem answers_whole_serving
    : ∃ (process : WorkerProcess) (job : Job),
        job ∈ process.answered
        ∧ (process.accepted 5).length = 94
        ∧ process.accepted 5
          = (job.response .ok (.default "casket") (Config.server (.default "casket"))).writeHeader
            ++ (process.yielded 5).flatten := by
  obtain ⟨process, run, served⟩ := serving_served
  have distinct : ((total WorkerEffect.came process.loop.trace).map Prod.fst).Nodup := by
    rw [served.1]
    decide
  obtain ⟨-, -, -, -, -, size, -, -, effect, member, finished⟩ := served
  cases effect with
  | answered ending response =>
      cases ending with
      | doneWrite =>
          have token : response.token = 5 := Option.some.inj finished
          obtain ⟨job, known, -, whole, -⟩ :=
            (answers_whole _ _ _ _ process run distinct response).2.1 member
          rw [token] at whole
          exact ⟨process, job, known, size, whole⟩
      | _ => cases finished
  | _ => cases finished

end WorkerProcess
end Casket
