import Casket.Service.Identity
import Casket.Worker.Serving

/-! The whole of a running casket: the server, the worker processes it forked, and in each of
them the python threads. What was shown of the server and the loops of its workers holds of
it, and what each process does for its clients needs no promise about its tokens any more.
-/

namespace Casket

open Lib

-----------------------------------------------------------------------------------------
-- The processes
-----------------------------------------------------------------------------------------

/-- The server and its worker processes, as `run` of `main` forks them. -/
structure ProcessTree where
  server : Server
  workers : List WorkerProcess

/-- A step of the server, or of a worker's loop or one of its threads. -/
inductive TreeInput where
  | server (input : ServerInput)
  | worker (n : Nat) (input : ProcessInput)

/-- What is in a socket changes by the steps of its two ends only. -/
def ProcessInput.own : ProcessInput → Bool
  | .loop input => input.own
  | .thread _ _ => true

/-- The process at its own end of a socket. -/
def WorkerProcess.at (self : WorkerProcess) (unixSocket : UnixSocket) : WorkerProcess :=
  { self with loop := self.loop.at unixSocket }

namespace ProcessTree

def new (cfg : Config) : ProcessTree where
  server := .new cfg.numWorkers
  workers := List.replicate cfg.numWorkers (.new cfg)

/-- A step of worker process `n`, on its own end of its own socket. -/
def workerStep (parser : StatusParser) (cfg : Config) (crates : Crates) (bincode : Bincode)
    (tree : ProcessTree) (n : Nat) (input : ProcessInput)
    : Option ProcessTree :=
  match tree.server.unixStreams[n]?, tree.workers[n]? with
  | some stream, some worker =>
      if input.own then
        ((worker.at stream.stream).step parser cfg crates bincode input).map
          fun worker =>
            { server :=
                { tree.server with
                  unixStreams :=
                    tree.server.unixStreams.set n
                      { stream with stream := worker.loop.unixSocket } }
              workers := tree.workers.set n worker }
      else
        none
  | _, _ => none

def step (parser : StatusParser) (cfg : Config) (crates : Crates) (bincode : Bincode)
    (tree : ProcessTree)
    : TreeInput → Option ProcessTree
  | .server input =>
      (tree.server.step cfg bincode input).map fun server => { tree with server }
  | .worker n input => tree.workerStep parser cfg crates bincode n input

/-- The server's tokens stay in range, the responses of the workers are short, and `mio`
reports to them only what is registered. Of the threads nothing is promised.
-/
def Reported (cfg : Config) (crates : Crates) (bincode : Bincode) (tree : ProcessTree)
    : TreeInput → Prop
  | .server input => tree.server.InRange (.input input)
  | .worker n (.loop input) =>
      ∀ stream ∈ tree.server.unixStreams[n]?,
      ∀ worker ∈ tree.workers[n]?,
        (worker.at stream.stream).loop.Short cfg crates bincode
            ((worker.at stream.stream).loopInput input)
        ∧ (worker.at stream.stream).loop.Reports ((worker.at stream.stream).loopInput input)
  | .worker _ (.thread _ _) => True

instance (cfg : Config) (crates : Crates) (bincode : Bincode) (tree : ProcessTree)
    (input : TreeInput)
    : Decidable (tree.Reported cfg crates bincode input) :=
  match input with
  | .server input => inferInstanceAs (Decidable (tree.server.InRange (.input input)))
  | .worker n (.loop input) =>
      inferInstanceAs
        (Decidable
          (∀ stream ∈ tree.server.unixStreams[n]?,
            ∀ worker ∈ tree.workers[n]?,
              (worker.at stream.stream).loop.Short cfg crates bincode
                  ((worker.at stream.stream).loopInput input)
              ∧ (worker.at stream.stream).loop.Reports
                ((worker.at stream.stream).loopInput input)))
  | .worker _ (.thread _ _) => isTrue trivial

variable {parser : StatusParser} {cfg : Config} {crates : Crates} {bincode : Bincode}
  {tree after : ProcessTree}

/-- A step of a worker process leaves the others and the server's loop alone. -/
theorem workerStep_inv {n : Nat} {input : ProcessInput}
    (taken : tree.workerStep parser cfg crates bincode n input = some after)
    : ∃ stream worker next,
        tree.server.unixStreams[n]? = some stream
        ∧ tree.workers[n]? = some worker
        ∧ (worker.at stream.stream).step parser cfg crates bincode input = some next
        ∧ input.own = true
        ∧ after
          = { server :=
                { tree.server with
                  unixStreams :=
                    tree.server.unixStreams.set n
                      { stream with stream := next.loop.unixSocket } }
              workers := tree.workers.set n next } := by
  unfold workerStep at taken
  split at taken
  · next stream worker found there =>
      split at taken
      · next own =>
          obtain ⟨next, moved, rfl⟩ := Option.map_eq_some_iff.mp taken
          exact ⟨stream, worker, next, found, there, moved, own, rfl⟩
      · cases taken
  · cases taken

/-- What the other end of its socket does is a step of a process. -/
theorem step_socket (worker : WorkerProcess) (unixSocket : UnixSocket)
    : worker.step parser cfg crates bincode (.loop (.socket unixSocket))
      = some (worker.at unixSocket) := by
  have moved := @Service.step_socket cfg crates bincode worker.loop unixSocket
  simp only [WorkerProcess.step, WorkerInput.ofThread, moved, Bool.false_eq_true, if_false]
  rfl

/-- A run of the tree is one of each process, at its own socket. Witness: induction on the run;
the server's steps are what the process's socket does.
-/
theorem worker_runs {guard : ProcessTree → TreeInput → Prop}
    (run : Reach (step parser cfg crates bincode) guard (.new cfg) tree)
    : ∀ (n : Nat) (stream : UnixStream) (worker : WorkerProcess),
        tree.server.unixStreams[n]? = some stream →
        tree.workers[n]? = some worker →
        Reach (WorkerProcess.step parser cfg crates bincode) (fun _ _ => True) (.new cfg)
          (worker.at stream.stream) := by
  induction run with
  | start =>
      intro n stream worker found there
      obtain rfl := (List.mem_replicate.mp (List.mem_of_getElem? there)).2
      exact Reach.start.next trivial (step_socket _ stream.stream)
  | @next before input after _ _ taken ih =>
      intro n stream worker found there
      cases input with
      | server input =>
          obtain ⟨server, moved, rfl⟩ := Option.map_eq_some_iff.mp taken
          have bound := (List.getElem?_eq_some_iff.mp found).1
          rw [(Server.step_takes moved).workers] at bound
          have earlier := ih n _ worker (List.getElem?_eq_getElem bound) there
          exact earlier.next trivial (step_socket _ stream.stream)
      | worker k input =>
          obtain ⟨socket, other, next, held, stood, moved, -, rfl⟩ := workerStep_inv taken
          by_cases same : k = n
          · subst same
            have bound := (List.getElem?_eq_some_iff.mp held).1
            have within := (List.getElem?_eq_some_iff.mp stood).1
            rw [List.getElem?_set_self bound] at found
            rw [List.getElem?_set_self within] at there
            obtain rfl := Option.some.inj found
            obtain rfl := Option.some.inj there
            exact (ih k socket other held stood).next trivial moved
          · rw [List.getElem?_set_ne same] at found there
            exact ih n stream worker found there

end ProcessTree

-----------------------------------------------------------------------------------------
-- Steps of one worker are steps of the service
-----------------------------------------------------------------------------------------

/-- The responses the worker has sent are short. -/
def WorkerLoop.Brief (bincode : Bincode) (self : WorkerLoop) : Prop :=
  ∀ response ∈ WorkerEffect.responses self.trace,
    (bincode.serializeResponse response).length < 2 ^ 32

theorem WorkerLoop.Brief.same {bincode : Bincode} {loop after : WorkerLoop}
    (brief : loop.Brief bincode) (trace : after.trace = loop.trace)
    : after.Brief bincode := by
  intro response member
  rw [trace] at member
  exact brief response member

/-- What is promised of a step of a worker in a service. -/
structure WorkerLoop.Promised (cfg : Config) (crates : Crates) (bincode : Bincode)
    (loop : WorkerLoop) (input : WorkerInput)
    : Prop where
  own : input.own = true
  short : loop.Short cfg crates bincode input
  reports : loop.Reports input

namespace Service

variable {cfg : Config} {crates : Crates} {bincode : Bincode} {service : Service}

/-- The service with another worker at one position, and what that left in its socket. -/
def withWorker (service : Service) (n : Nat) (stream : UnixStream) (unixSocket : UnixSocket)
    (worker : WorkerLoop)
    : Service where
  server :=
    { service.server with
      unixStreams := service.server.unixStreams.set n { stream with stream := unixSocket } }
  workers := service.workers.set n worker

/-- Steps of one worker at its socket, as promised, are a run of the service. Witness:
induction on the steps; the service replaces the socket and the worker at one position again
and again.
-/
theorem worker_reach {n : Nat} {stream : UnixStream} {worker last : WorkerLoop}
    (found : service.server.unixStreams[n]? = some stream)
    (there : service.workers[n]? = some worker)
    (run
      : Reach (WorkerLoop.step cfg crates bincode) (WorkerLoop.Promised cfg crates bincode)
          (worker.at stream.stream) last)
    : ∃ next : WorkerLoop,
        next.at last.unixSocket = last
        ∧ Reach (step cfg crates bincode) (Reported cfg crates bincode) service
            (service.withWorker n stream last.unixSocket next) := by
  obtain ⟨within, at_⟩ := List.getElem?_eq_some_iff.mp found
  obtain ⟨among, stands⟩ := List.getElem?_eq_some_iff.mp there
  induction run with
  | start =>
      refine ⟨worker, rfl, ?_⟩
      have sockets : service.server.unixStreams.set n stream = service.server.unixStreams :=
        at_ ▸ List.set_getElem_self within
      have workers : service.workers.set n worker = service.workers :=
        stands ▸ List.set_getElem_self among
      have same : service.withWorker n stream stream.stream worker = service := by
        rw [withWorker, sockets, workers]
      exact same.symm ▸ .start
  | @next before input after earlier allowed taken ih =>
      obtain ⟨next, same, reached⟩ := ih
      have socket
          : (service.withWorker n stream before.unixSocket next).server.unixStreams[n]?
            = some { stream with stream := before.unixSocket } :=
        List.getElem?_set_self within
      have held : (service.withWorker n stream before.unixSocket next).workers[n]? = some next :=
        List.getElem?_set_self among
      have moved
          : (service.withWorker n stream before.unixSocket next).step cfg crates bincode
              (.worker n input)
            = some (service.withWorker n stream after.unixSocket after) := by
        rw [step, workerStep, socket, held]
        simp only [allowed.own, if_true, same, taken, Option.map_some, withWorker,
          List.set_set]
      refine ⟨after, rfl, reached.next ⟨?_, ?_⟩ moved⟩
      · intro stream_ looked worker_ waits
        obtain rfl := Option.some.inj (socket.symm.trans looked)
        obtain rfl := Option.some.inj (held.symm.trans waits)
        exact same.symm ▸ allowed.short
      · intro stream_ looked worker_ waits
        obtain rfl := Option.some.inj (socket.symm.trans looked)
        obtain rfl := Option.some.inj (held.symm.trans waits)
        exact same.symm ▸ allowed.reports

end Service

-----------------------------------------------------------------------------------------
-- Every run of the processes is a run of the service
-----------------------------------------------------------------------------------------

namespace ProcessTree

variable {parser : StatusParser} {cfg : Config} {crates : Crates} {bincode : Bincode}
  {tree after : ProcessTree} {service : Service}

/-- A worker of the service stands where the loop of a process does, at any socket. -/
def Stands (worker : WorkerProcess) (loop : WorkerLoop) : Prop :=
  ∀ unixSocket, loop.at unixSocket = worker.loop.at unixSocket

/-- The service is what the processes are without their threads. -/
structure Shows (bincode : Bincode) (tree : ProcessTree) (service : Service) : Prop where
  server : service.server = tree.server
  workers : List.Forall₂ Stands tree.workers service.workers
  brief : ∀ worker ∈ tree.workers, worker.loop.Brief bincode

theorem shows_new (cfg : Config) (bincode : Bincode)
    : (new cfg).Shows bincode (.new cfg) where
  server := rfl
  workers := by
    refine List.forall₂_iff_get.mpr ⟨by simp [new, Service.new], ?_⟩
    intro n left right
    simp only [List.get_eq_getElem, List.getElem_replicate, new, Service.new]
    exact fun _ => rfl
  brief worker member := by
    obtain rfl := (List.mem_replicate.mp member).2
    exact fun _ absent => absurd absent List.not_mem_nil

/-- What the threads do needs no promise: it sends no response, and asks nothing of `mio`. -/
theorem promised_ofThread {loop : WorkerLoop} {input : WorkerInput}
    (thread : input.ofThread = true) (brief : loop.Brief bincode)
    : loop.Promised cfg crates bincode input := by
  have quiet {after : WorkerLoop} (taken : loop.step cfg crates bincode input = some after)
      : after.trace = loop.trace := by
    cases input with
    | codeStart n tk time =>
        rw [WorkerLoop.step_codeStart] at taken
        obtain ⟨pool, -, rfl⟩ := Option.map_eq_some_iff.mp taken
        rfl
    | respond n tk resp =>
        rw [WorkerLoop.step_respond] at taken
        obtain ⟨pool, -, rfl⟩ := Option.map_eq_some_iff.mp taken
        rfl
    | threadDies n =>
        rw [WorkerLoop.step_threadDies] at taken
        obtain rfl := Option.some.inj taken
        rfl
    | _ => cases thread
  refine ⟨?_, fun after taken => ?_, ?_⟩
  · cases input with
    | codeStart | respond | threadDies => rfl
    | _ => cases thread
  · exact brief.same (quiet taken)
  · cases input with
    | codeStart | respond | threadDies => trivial
    | _ => cases thread

/-- The responses of a process are short if those its loop sends in a step are. -/
theorem brief_goes {self next : WorkerProcess} {input : ProcessInput}
    (goes : self.Goes parser cfg crates bincode input next)
    (short
      : ∀ call, input = .loop call → self.loop.Short cfg crates bincode (self.loopInput call))
    (brief : self.loop.Brief bincode)
    : next.loop.Brief bincode := by
  cases goes with
  | @event io loop taken =>
      have sent : loop.Brief bincode := short (.event io) rfl loop taken
      exact sent.same (WorkerProcess.dieAll_trace (self.dying io))
  | @loop call loop _ other taken =>
      have stepped := short call rfl
      rw [WorkerProcess.loopInput_of_ne other] at stepped
      exact stepped loop taken
  | thread taken =>
      obtain ⟨thread, _, _, -, -, rfl⟩ := WorkerProcess.threadStep_steps taken
      exact brief.same (WorkerProcess.sends_trace thread.phase)

/-- Every step of the processes is a run of the service. -/
theorem Shows.stepped (shows : tree.Shows bincode service)
    (run
      : Reach (step parser cfg crates bincode) (Reported cfg crates bincode) (.new cfg) tree)
    {input : TreeInput} (allowed : tree.Reported cfg crates bincode input)
    (taken : tree.step parser cfg crates bincode input = some after)
    : ∃ next,
        Reach (Service.step cfg crates bincode) (Service.Reported cfg crates bincode) service
          next
        ∧ after.Shows bincode next := by
  cases input with
  | server input =>
      obtain ⟨server, moved, rfl⟩ := Option.map_eq_some_iff.mp taken
      have steps
          : service.step cfg crates bincode (.server input) = some { service with server } := by
        rw [Service.step, shows.server, moved]
        rfl
      have inRange : service.Reported cfg crates bincode (.server input) :=
        ⟨(congrArg (Server.InRange · (.input input)) shows.server).mpr allowed, trivial⟩
      exact ⟨_, Reach.start.next inRange steps, rfl, shows.workers, shows.brief⟩
  | worker n input =>
      obtain ⟨stream, worker, next, found, there, moved, own, rfl⟩ := workerStep_inv taken
      obtain ⟨loop, among, stands⟩ := forall₂_getElem? shows.workers.flip there
      have manned := (WorkerProcess.manned_reach (worker_runs run n stream worker found there)).2
      have goes := WorkerProcess.step_goes moved
      have brief : (worker.at stream.stream).loop.Brief bincode :=
        shows.brief worker (List.mem_of_getElem? there)
      have short
          : ∀ call,
              input = .loop call →
              (worker.at stream.stream).loop.Short cfg crates bincode
                ((worker.at stream.stream).loopInput call) := by
        rintro call rfl
        exact (allowed stream found worker there).1
      have still := brief_goes goes short brief
      have reached
          : Reach (WorkerLoop.step cfg crates bincode)
              (WorkerLoop.Promised cfg crates bincode) (worker.at stream.stream).loop
              next.loop := by
        refine goes.reach ?_ ?_ manned
        · rintro call rfl
          obtain ⟨shorter, reports⟩ := allowed stream found worker there
          refine ⟨?_, shorter, reports⟩
          cases call with
          | socket => cases own
          | _ => rfl
        · intro other call thread same
          refine promised_ofThread thread ?_
          exact same.elim brief.same still.same
      rw [show (worker.at stream.stream).loop = loop.at stream.stream from
        (stands stream.stream).symm] at reached
      have socket : service.server.unixStreams[n]? = some stream := shows.server ▸ found
      obtain ⟨last, same, more⟩ := Service.worker_reach socket among reached
      refine ⟨_, more, ?_, ?_, ?_⟩
      · rw [Service.withWorker, shows.server]
      · refine forall₂_set_both shows.workers n fun unixSocket => ?_
        rw [← same]
        rfl
      · intro other member
        rcases List.mem_or_eq_of_mem_set member with before | rfl
        · exact shows.brief other before
        · exact still

/-- Every run of the processes shows a run of the service. -/
theorem shows_reach
    (run
      : Reach (step parser cfg crates bincode) (Reported cfg crates bincode) (.new cfg) tree)
    : ∃ service,
        Reach (Service.step cfg crates bincode) (Service.Reported cfg crates bincode) (.new cfg)
          service
        ∧ tree.Shows bincode service :=
  run.simulates (fun tree service => tree.Shows bincode service) (shows_new cfg bincode)
    fun earlier _ shows allowed taken => shows.stepped earlier allowed taken

-----------------------------------------------------------------------------------------
-- A run in which a client is answered
-----------------------------------------------------------------------------------------

/-- A step of the service in the tree. -/
def ofService : ServiceInput → TreeInput
  | .server input => .server input
  | .worker n input => .worker n (.loop input)

/-- What a worker does once the stream was handed to it: it reads the request and hands it to
a thread, which answers it with a body of one chunk, and writes the response in two parts.
-/
def answering : List ProcessInput :=
  let read : WorkerEventIo := { WorkerEventIo.quiet with read := .ok (headOf "0") }
  let send : WorkerEventIo := { WorkerEventIo.quiet with alive := [[0, 1]] }
  (WorkerInput.turn 0 [] [⟨16777216, true, false⟩] [read] 1 0 0
      ++ WorkerInput.turn 0 [] [] [send] 0 0 0).map .loop
  ++ [.thread 1 .receive, .thread 1 (.sendCodeStart 0),
    .thread 1 (.execute (yields [.pair "Content-Length" "2"] [104, 105])),
    .thread 1 .sendResponse]
  ++ (WorkerInput.turn 0 [] [] [WorkerLoop.found 1 1] 2 0 0).map .loop
  ++ [.thread 1 .stream, .thread 1 .stream]
  ++ (WorkerInput.turn 0 [] [⟨16777216, false, true⟩]
          [{ WorkerEventIo.quiet with write := .ok 60 }] 1 0 0
      ++ WorkerInput.turn 0 [] [⟨16777216, false, true⟩]
          [{ WorkerEventIo.quiet with write := .ok 34 }] 1 0 0).map .loop

/-- What is seen of it in the end. -/
def Answered (tree : ProcessTree) : Prop :=
  ∃ worker ∈ tree.workers,
    (worker.accepted 16777216).length = 94
    ∧ worker.answered.map Job.key = [16777216]
    ∧ worker.threads.flatMap (fun thread => thread.handed.map Prod.fst) = [16777216]

instance (tree : ProcessTree) : Decidable tree.Answered :=
  inferInstanceAs (Decidable (∃ worker ∈ tree.workers, _ ∧ _))

theorem answering_answered
    : ∃ tree,
        Reach (step .ok Service.manned (.onHead "0") .fixint)
          (Reported Service.manned (.onHead "0") .fixint) (.new Service.manned) tree
        ∧ tree.Answered := by
  have runs
      : ((exec (step .ok Service.manned (.onHead "0") .fixint)
            (Reported Service.manned (.onHead "0") .fixint) (.new Service.manned)
            (Service.handing.map ofService ++ answering.map (.worker 0))).any
          fun tree => decide tree.Answered)
        = true := by
    decide +kernel
  obtain ⟨tree, done, answered⟩ := (Option.any_eq_true _ _).mp runs
  exact ⟨tree, Reach.of_exec _ done, of_decide_eq_true answered⟩

-----------------------------------------------------------------------------------------
-- The refinement
-----------------------------------------------------------------------------------------

/-- Every run of the server with its worker processes and their threads is one of the server
with the workers' loops: the server is the same, and each loop stands where its process does.
Each process runs as it does alone.
-/
theorem processes_refine (parser : StatusParser) (cfg : Config) (crates : Crates)
    (bincode : Bincode)
    : ∀ tree,
        Reach (step parser cfg crates bincode) (Reported cfg crates bincode) (.new cfg) tree →
        (∃ service,
          Reach (Service.step cfg crates bincode) (Service.Reported cfg crates bincode)
            (.new cfg) service
          ∧ service.server = tree.server
          ∧ List.Forall₂ Stands tree.workers service.workers)
        ∧ ∀ (n : Nat) (stream : UnixStream) (worker : WorkerProcess),
            tree.server.unixStreams[n]? = some stream →
            tree.workers[n]? = some worker →
            Reach (WorkerProcess.step parser cfg crates bincode) (fun _ _ => True) (.new cfg)
              (worker.at stream.stream) := by
  intro tree run
  obtain ⟨service, reached, shows⟩ := shows_reach run
  exact ⟨⟨service, reached, shows.server, shows.workers⟩, worker_runs run⟩

theorem processes_refine_answering
    : ∃ (tree : ProcessTree) (service : Service),
        tree.Answered
        ∧ Reach (Service.step Service.manned (.onHead "0") .fixint)
          (Service.Reported Service.manned (.onHead "0") .fixint) (.new Service.manned) service
        ∧ service.server = tree.server := by
  obtain ⟨tree, run, answered⟩ := answering_answered
  obtain ⟨⟨service, reached, same, -⟩, -⟩ := processes_refine _ _ _ _ tree run
  exact ⟨tree, service, answered, reached, same⟩

end ProcessTree
end Casket
