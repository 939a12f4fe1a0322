import Casket.Config
import Casket.Server.Handout
import Casket.Worker.ReaderRuns
import Casket.Worker.Staff

/-! The server and its workers, as one configuration starts them. The workers' sockets are
those of the server. A number of the configuration takes effect far from where it is read: at
a dispatch, at a send to the python threads, at the sum of a deadline.
-/

namespace Casket

open Lib

-----------------------------------------------------------------------------------------
-- The running service
-----------------------------------------------------------------------------------------

structure Service where
  server : Server
  workers : List WorkerLoop

/-- A step of the server or of one worker. -/
inductive ServiceInput where
  | server (input : ServerInput)
  | worker (n : Nat) (input : WorkerInput)

/-- What is in a socket changes by the steps of its two ends only. -/
def WorkerInput.own : WorkerInput → Bool
  | .socket _ => false
  | _ => true

/-- The worker at its own end of a socket. -/
def WorkerLoop.at (self : WorkerLoop) (unixSocket : UnixSocket) : WorkerLoop :=
  { self with unixSocket }

namespace Service

/-- `run` forks the workers, and all loops are entered. Every socket pair is made and every
fork and thread spawn succeeds.
-/
def new (cfg : Config) : Service where
  server := .new cfg.numWorkers
  workers := List.replicate cfg.numWorkers (.new cfg)

/-- A step of worker `n`, on its own end of its own socket. -/
def workerStep (cfg : Config) (crates : Crates) (bincode : Bincode) (service : Service)
    (n : Nat) (input : WorkerInput)
    : Option Service :=
  match service.server.unixStreams[n]?, service.workers[n]? with
  | some stream, some worker =>
      if input.own then
        ((worker.at stream.stream).step cfg crates bincode input).map
          fun worker =>
            { server :=
                { service.server with
                  unixStreams :=
                    service.server.unixStreams.set n
                      { stream with stream := worker.unixSocket } }
              workers := service.workers.set n worker }
      else
        none
  | _, _ => none

def step (cfg : Config) (crates : Crates) (bincode : Bincode) (service : Service)
    : ServiceInput → Option Service
  | .server input =>
      (service.server.step cfg bincode input).map fun server => { service with server }
  | .worker n input => service.workerStep cfg crates bincode n input

/-- No python thread of a worker dies. -/
def Lives (service : Service) : ServiceInput → Prop
  | .server _ => True
  | .worker n input => ∀ worker ∈ service.workers[n]?, worker.Lives input

/-- Streams are handed out only to workers that exist, requests are sent only to threads that
exist, and every deadline is a time.
-/
def Serves (cfg : Config) (service : Service) : ServiceInput → Prop
  | .server input => service.server.Serves cfg input
  | .worker n input => ∀ worker ∈ service.workers[n]?, worker.Serves cfg input

/-- No value of the configuration made a component panic or stop. -/
structure Sound (service : Service) : Prop where
  dispatch : service.server.phase ≠ .panicked .noUnixStream
  workers : ∀ worker ∈ service.workers, worker.Served

instance (service : Service) (input : ServiceInput) : Decidable (service.Lives input) :=
  match input with
  | .server _ => isTrue trivial
  | .worker n _ => Option.decidableForallMem service.workers[n]?

instance (cfg : Config) (service : Service) (input : ServiceInput)
    : Decidable (service.Serves cfg input) :=
  match input with
  | .server input => inferInstanceAs (Decidable (service.server.Serves cfg input))
  | .worker n _ => Option.decidableForallMem service.workers[n]?

-----------------------------------------------------------------------------------------
-- One step
-----------------------------------------------------------------------------------------

/-- A service whose steps have served so far. -/
structure Fit (cfg : Config) (service : Service) : Prop where
  dispatch : service.server.phase ≠ .panicked .noUnixStream
  sockets : service.server.unixStreams.length = cfg.numWorkers
  workers : ∀ worker ∈ service.workers, worker.Fit cfg

variable {cfg : Config} {crates : Crates} {bincode : Bincode} {service after : Service}
  {input : ServiceInput}

theorem fit_new (cfg : Config) : (Service.new cfg).Fit cfg where
  dispatch := nofun
  sockets := by simp [new, Server.new]
  workers worker member := by
    obtain rfl := (List.mem_replicate.mp member).2
    exact WorkerLoop.fit_new cfg

theorem Fit.sound (fit : service.Fit cfg) : service.Sound where
  dispatch := fit.dispatch
  workers worker member := (fit.workers worker member).served

/-- A worker is as fit at any socket. -/
theorem fit_at {worker : WorkerLoop} (fit : worker.Fit cfg) (unixSocket : UnixSocket)
    : (worker.at unixSocket).Fit cfg where
  served := ⟨fit.served.threads, fit.served.time⟩
  staffed runs :=
    have staffed := fit.staffed runs
    ⟨staffed.wired, staffed.alive, staffed.senders, staffed.unstaffed⟩

/-- A worker's step leaves the other workers and the server's loop alone. -/
theorem workerStep_inv {n : Nat} {input : WorkerInput}
    (taken : service.workerStep cfg crates bincode n input = some after)
    : ∃ stream worker next,
        service.server.unixStreams[n]? = some stream
        ∧ service.workers[n]? = some worker
        ∧ (worker.at stream.stream).step cfg crates bincode input = some next
        ∧ after
          = { server :=
                { service.server with
                  unixStreams :=
                    service.server.unixStreams.set n { stream with stream := next.unixSocket } }
              workers := service.workers.set n next } := by
  unfold workerStep at taken
  split at taken
  · next stream worker found there =>
      split at taken
      · obtain ⟨next, moved, rfl⟩ := Option.map_eq_some_iff.mp taken
        exact ⟨stream, worker, next, found, there, moved, rfl⟩
      · cases taken
  · cases taken

/-- A step leaves the service sound exactly if it serves. -/
theorem step_sound_iff (taken : service.step cfg crates bincode input = some after)
    (lives : service.Lives input) (fit : service.Fit cfg)
    : after.Sound ↔ service.Serves cfg input := by
  cases input with
  | server input =>
      obtain ⟨server, moved, rfl⟩ := Option.map_eq_some_iff.mp taken
      have exact := Server.step_dispatched_iff moved fit.sockets
      refine ⟨fun sound => exact.mp sound.dispatch, fun serves => ?_⟩
      exact ⟨exact.mpr serves, fit.sound.workers⟩
  | worker n input =>
      obtain ⟨stream, worker, next, -, there, moved, rfl⟩ := workerStep_inv taken
      have member := List.mem_of_getElem? there
      have exact := WorkerLoop.step_served_iff moved (lives worker there)
        (fit_at (fit.workers worker member) stream.stream)
      constructor
      · intro sound other found
        obtain rfl := Option.some.inj (there.symm.trans found)
        have among := List.mem_set (List.getElem?_eq_some_iff.mp there).1 next
        exact exact.mp (sound.workers next among)
      · intro serves
        refine ⟨fit.dispatch, fun other among => ?_⟩
        rcases List.mem_or_eq_of_mem_set among with before | rfl
        · exact fit.sound.workers other before
        · exact exact.mpr (serves worker there)

/-- A step that serves leaves it fit. -/
theorem step_fit (taken : service.step cfg crates bincode input = some after)
    (lives : service.Lives input) (serves : service.Serves cfg input)
    (fit : service.Fit cfg)
    : after.Fit cfg := by
  have sound := (step_sound_iff taken lives fit).mpr serves
  cases input with
  | server input =>
      obtain ⟨server, moved, rfl⟩ := Option.map_eq_some_iff.mp taken
      refine ⟨sound.dispatch, ?_, fit.workers⟩
      exact (Server.step_takes moved).workers.trans fit.sockets
  | worker n input =>
      obtain ⟨stream, worker, next, -, there, moved, rfl⟩ := workerStep_inv taken
      refine ⟨sound.dispatch, List.length_set.trans fit.sockets, fun other among => ?_⟩
      rcases List.mem_or_eq_of_mem_set among with before | rfl
      · exact fit.workers other before
      · have member := List.mem_of_getElem? there
        exact WorkerLoop.step_fit moved (lives worker there) (serves worker there)
          (fit_at (fit.workers worker member) stream.stream)

-----------------------------------------------------------------------------------------
-- Each component runs as it does alone
-----------------------------------------------------------------------------------------

/-- A run of the service is one of its server, for which the sockets are in other hands.
Witness: induction on the run.
-/
theorem server_runs {guard : Service → ServiceInput → Prop}
    {promise : Server → ServerLabel → Prop}
    (own
      : ∀ {service input}, guard service (.server input) → promise service.server (.input input))
    (free : ∀ server n socket, promise server (.socket n socket))
    (run : Reach (step cfg crates bincode) guard (.new cfg) service)
    : Reach (Server.openStep cfg bincode) promise (.new cfg.numWorkers) service.server := by
  induction run with
  | start => exact .start
  | @next before input after _ allowed taken ih =>
      cases input with
      | server input =>
          obtain ⟨server, moved, rfl⟩ := Option.map_eq_some_iff.mp taken
          exact ih.next (own allowed) moved
      | worker n input =>
          obtain ⟨stream, worker, next, found, -, -, rfl⟩ := workerStep_inv taken
          refine ih.next (free _ n next.unixSocket) ?_
          simp only [Server.openStep, Server.withSocket, found, Option.map_some]

/-- What the other end of a worker's socket does is a step of the worker. -/
theorem step_socket (worker : WorkerLoop) (unixSocket : UnixSocket)
    : worker.step cfg crates bincode (.socket unixSocket) = some (worker.at unixSocket) := by
  simp only [WorkerLoop.step, WorkerLoop.at]

/-- A run of the service is one of each worker, at its own socket. Witness: induction on the
run; the server's steps are what the worker's socket does.
-/
theorem worker_runs {guard : Service → ServiceInput → Prop}
    {promise : WorkerLoop → WorkerInput → Prop}
    (own
      : ∀ {service : Service} {n : Nat} {input : WorkerInput} {stream : UnixStream}
          {worker : WorkerLoop},
          guard service (.worker n input) →
          service.server.unixStreams[n]? = some stream →
          service.workers[n]? = some worker →
          promise (worker.at stream.stream) input)
    (free : ∀ worker unixSocket, promise worker (.socket unixSocket))
    (run : Reach (step cfg crates bincode) guard (.new cfg) service)
    : ∀ (n : Nat) (stream : UnixStream) (worker : WorkerLoop),
        service.server.unixStreams[n]? = some stream →
        service.workers[n]? = some worker →
        Reach (WorkerLoop.step cfg crates bincode) promise (.new cfg)
          (worker.at stream.stream) := by
  induction run with
  | start =>
      intro n stream worker found there
      obtain rfl := (List.mem_replicate.mp (List.mem_of_getElem? there)).2
      exact Reach.start.next (free _ stream.stream) (step_socket _ stream.stream)
  | @next before input after _ allowed taken ih =>
      intro n stream worker found there
      cases input with
      | server input =>
          obtain ⟨server, moved, rfl⟩ := Option.map_eq_some_iff.mp taken
          have bound := (List.getElem?_eq_some_iff.mp found).1
          rw [(Server.step_takes moved).workers] at bound
          have earlier := ih n _ worker (List.getElem?_eq_getElem bound) there
          exact earlier.next (free _ stream.stream) (step_socket _ stream.stream)
      | worker k input =>
          obtain ⟨socket, other, next, held, stood, moved, rfl⟩ := workerStep_inv taken
          by_cases same : k = n
          · subst same
            have bound := (List.getElem?_eq_some_iff.mp held).1
            have within := (List.getElem?_eq_some_iff.mp stood).1
            rw [List.getElem?_set_self bound] at found
            rw [List.getElem?_set_self within] at there
            obtain rfl := Option.some.inj found
            obtain rfl := Option.some.inj there
            exact (ih k socket other held stood).next (own allowed held stood) moved
          · rw [List.getElem?_set_ne same] at found there
            exact ih n stream worker found there

-----------------------------------------------------------------------------------------
-- Whole runs
-----------------------------------------------------------------------------------------

/-- What a run is promised, and what is asked of its steps. -/
def Served (cfg : Config) (service : Service) (input : ServiceInput) : Prop :=
  service.Lives input ∧ service.Serves cfg input

instance (cfg : Config) (service : Service) (input : ServiceInput)
    : Decidable (service.Served cfg input) :=
  inferInstanceAs (Decidable (_ ∧ _))

/-- The sum a step makes for a deadline. -/
def deadline? (cfg : Config) (service : Service)
    : ServiceInput → Option (SystemTime × Duration)
  | .server _ => none
  | .worker n input => service.workers[n]?.bind (·.deadline? cfg input)

/-- With workers and threads, all a step needs is that its deadline is a time. -/
theorem serves_iff_fits (workers : 0 < cfg.numWorkers) (threads : 0 < cfg.numThreads)
    : service.Serves cfg input ↔ ∀ sum ∈ service.deadline? cfg input, sum.1.Fits sum.2 := by
  cases input with
  | server input => exact ⟨nofun, fun _ _ => workers⟩
  | worker n input =>
      dsimp only [Serves, deadline?]
      constructor
      · intro serves sum asked
        obtain ⟨worker, there, made⟩ := Option.bind_eq_some_iff.mp asked
        exact (serves worker there).2 sum made
      · intro fits worker there
        refine ⟨fun _ => threads, fun sum made => fits sum ?_⟩
        exact Option.bind_eq_some_iff.mpr ⟨worker, there, made⟩

theorem fit_reach
    (run : Reach (step cfg crates bincode) (Served cfg) (.new cfg) service)
    : service.Fit cfg := by
  refine run.invariant (Fit cfg) (fit_new cfg) ?_
  intro before input after fit guard taken
  exact step_fit taken guard.1 guard.2 fit

/-- A service of some workers with some threads stays sound while its deadlines are times. -/
theorem sound_of_fits (workers : 0 < cfg.numWorkers) (threads : 0 < cfg.numThreads)
    (run
      : Reach (step cfg crates bincode)
          (fun service input =>
            service.Lives input ∧ ∀ sum ∈ service.deadline? cfg input, sum.1.Fits sum.2)
          (.new cfg) service)
    : service.Sound := by
  have serves : Reach (step cfg crates bincode) (Served cfg) (.new cfg) service :=
    run.weaken fun allowed => ⟨allowed.1, (serves_iff_fits workers threads).mpr allowed.2⟩
  exact (fit_reach serves).sound

/-- With any accepted configuration a run in which no thread dies stays sound as long as its
steps serve, and no longer.
-/
theorem service_sound_iff (hostname : String) (vars : List (String × String)) (cfg : Config)
    (_accepted : Config.fromEnv hostname vars = .ok cfg) (crates : Crates) (bincode : Bincode)
    : ∀ service,
        Reach (step cfg crates bincode) (Served cfg) (.new cfg) service →
        service.Sound
        ∧ ∀ input after,
            service.Lives input → service.step cfg crates bincode input = some after →
            (after.Sound ↔ service.Serves cfg input) := by
  intro service run
  have fit := fit_reach run
  exact ⟨fit.sound, fun input after lives taken => step_sound_iff taken lives fit⟩

/-- The environment asks for no workers. -/
def unmanned : Config := { Config.default "casket" with numWorkers := 0 }

/-- The environment asks for one worker. -/
def manned : Config := { Config.default "casket" with numWorkers := 1 }

/-- A client is accepted, and what it sends is reported. -/
def connecting : List ServiceInput :=
  let iteration : List ServiceInput :=
    [.server (.top none false fun _ => true), .server .advance, .server .advance]
  iteration
  ++ [.server (.poll (some [⟨0, true, false⟩]) true 0 fun _ => true),
    .server (.event ⟨some ⟨9⟩, true, .ok 0, 0, .ok 0⟩), .server .advance]
  ++ iteration
  ++ [.server (.poll (some [⟨16777216, true, false⟩]) true 0 fun _ => true),
    .server (.event ⟨none, true, .ok 0, 0, .ok 0⟩)]

/-- The stream is sent to the worker, which starts to read from it. -/
def handing : List ServiceInput :=
  connecting
  ++ [.server .advance, .server (.top none false fun _ => true), .server .advance,
    .server .advance, .server (.poll (some [⟨1, false, true⟩]) true 0 fun _ => true),
    .server (.event ⟨none, true, .ok 0, 1, .ok 13⟩)]
  ++ (WorkerInput.turn 0 [] [⟨0, true, false⟩]
        [{ WorkerEventIo.quiet with unixRead := .ok 13, ready := 1 }] 0 0 0
      ++ WorkerInput.turn 0 [] [] [.quiet] 1 0 0).map (.worker 0)

/-- A stream of one client serves: its worker waits for the rest of the request. -/
theorem service_sound_iff_one
    : ∃ service,
        Reach (step manned (.onHead "0") .fixint) (Served manned) (.new manned) service
        ∧ service.workers.map (·.worker.poll.timerq)
          = [[⟨16777216, 30000000000, .requestReadTimeout⟩]]
        ∧ service.Sound := by
  have runs
      : (exec (step manned (.onHead "0") .fixint) (Served manned) (.new manned) handing).map
          (fun service => service.workers.map (·.worker.poll.timerq))
        = some [[⟨16777216, 30000000000, .requestReadTimeout⟩]] := by
    decide +kernel
  obtain ⟨service, done, waits⟩ := Option.map_eq_some_iff.mp runs
  have run := Reach.of_exec _ done
  have accepted : Config.fromEnv "casket" [("CASKET_NUM_WORKERS", "1")] = .ok manned := by
    decide +kernel
  obtain ⟨sound, -⟩ :=
    service_sound_iff "casket" _ manned accepted (.onHead "0") .fixint service run
  exact ⟨service, run, waits, sound⟩

/-- A configuration without workers is accepted, and the first client panics the server. -/
theorem unmanned_unsound
    : Config.fromEnv "casket" [("CASKET_NUM_WORKERS", "0")] = .ok unmanned
      ∧ ∃ service,
          Reach (step unmanned (.onHead "0") .fixint) Lives (.new unmanned) service
          ∧ ¬ service.Sound := by
  refine ⟨by decide +kernel, ?_⟩
  have runs
      : (exec (step unmanned (.onHead "0") .fixint) Lives (.new unmanned) connecting).map
          (·.server.phase)
        = some (.panicked .noUnixStream) := by
    decide +kernel
  obtain ⟨service, done, stopped⟩ := Option.map_eq_some_iff.mp runs
  exact ⟨service, Reach.of_exec _ done, fun sound => sound.dispatch stopped⟩

end Service
end Casket
