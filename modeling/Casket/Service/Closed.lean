import Casket.Service.Refines
import Casket.Worker.Ownership

/-! The closed system: with the server of this repository at the other end, the workers are
handed each token once, so whatever a component looks up is there, and every stream that a
worker holds is the one the server keeps under that token.
-/

namespace Casket

open Lib

-----------------------------------------------------------------------------------------
-- One worker that is handed distinct tokens
-----------------------------------------------------------------------------------------

namespace WorkerLoop

open WorkerEffect

variable {cfg : Config} {crates : Crates} {bincode : Bincode} {state : WorkerLoop}

/-- The streams that came are those received, by induction on the trace. -/
theorem total_came (trace : List WorkerEffect)
    : total came trace = ((received trace).map owned : List (Token × TcpStream)) := by
  induction trace with
  | nil => rfl
  | cons effect rest ih =>
      rw [total_cons, ih, received, received]
      cases effect with
      | received tk fd => rfl
      | _ => exact zero_add _

/-- Distinct tokens among the streams received are distinct among those that came. -/
theorem came_nodup {trace : List WorkerEffect}
    : ((total came trace).map Prod.fst).Nodup ↔ ((received trace).map Prod.fst).Nodup := by
  rw [total_came, Multiset.map_coe, Multiset.coe_nodup, List.map_map]
  rfl

/-- What the trace of a step that ends the loop does not add to. -/
theorem Ended.same {guard : WorkerLoop → WorkerInput → Prop} {before : WorkerLoop}
    {input : WorkerInput} (ended : Ended cfg crates bincode guard before input state)
    : received state.trace = received before.trace
      ∧ responses state.trace = responses before.trace := by
  obtain ⟨effects, trace, passes⟩ := ended.leaves.trace
  have silent : ∀ effect ∈ effects, effect.received? = none ∧ effect.response? = none := by
    intro effect member
    have passed := passes effect member
    cases effect with
    | read | wrote | logged => exact ⟨rfl, rfl⟩
    | _ => cases passed
  have received : effects.filterMap received? = [] :=
    List.filterMap_eq_nil_iff.mpr fun effect member => (silent effect member).1
  have unsent : effects.filterMap response? = [] :=
    List.filterMap_eq_nil_iff.mpr fun effect member => (silent effect member).2
  constructor
  · rw [trace, WorkerLoop.received, List.filterMap_append, received]
    exact List.append_nil _
  · rw [trace, responses, List.filterMap_append, unsent]
    exact List.append_nil _

/-- A run of a worker is running, or its last step ended it, with the same tokens received and
answered.
-/
theorem last_running {guard : WorkerLoop → WorkerInput → Prop}
    (run : Reach (step cfg crates bincode) guard (.new cfg) state)
    : ∃ before,
        Reach (step cfg crates bincode) guard (.new cfg) before
        ∧ before.phase.running = true
        ∧ received state.trace = received before.trace
        ∧ responses state.trace = responses before.trace := by
  cases runs : state.phase.running with
  | true => exact ⟨state, run, runs, rfl, rfl⟩
  | false =>
      obtain ⟨before, input, ended⟩ := stopped_reach run runs
      exact ⟨before, ended.run, ended.runs, ended.same⟩

/-- A worker answers only tokens it received, each of them once. -/
theorem answers_received
    (run : Reach (step cfg crates bincode) Reports (.new cfg) state)
    (distinct : ((received state.trace).map Prod.fst).Nodup)
    : ((responses state.trace).map Response.token).Subperm
        ((received state.trace).map Prod.fst) := by
  obtain ⟨before, ran, runs, received, responses⟩ := last_running run
  rw [received] at distinct ⊢
  rw [responses]
  obtain ⟨conserves, -, -⟩ := owned_reach ran runs
  have tokens := conserves.tokens (came_nodup.mpr distinct)
  rw [total_came, total_told, Multiset.map_coe, List.map_map] at tokens
  have within := Multiset.le_add_left
    ((WorkerEffect.responses before.trace).map Response.token : Multiset Token)
    (before.holdings.map Prod.fst)
  rw [← tokens] at within
  exact Multiset.coe_le.mp within

/-- A worker finds every stream and every descriptor it looks up. -/
theorem lookups_found
    (run : Reach (step cfg crates bincode) Reports (.new cfg) state)
    (distinct : ((received state.trace).map Prod.fst).Nodup) {panic : Panic}
    (lookup
      : panic ∈ [.readingStream, .writingStream, .casketResponse, .pendingStream, .serverFd])
    : state.phase ≠ .panicked panic := by
  intro stopped
  have ends : state.phase.running = false := by
    rw [stopped]
    rfl
  obtain ⟨before, input, ended⟩ := stopped_reach run ends
  obtain ⟨conserves, accounts, owned⟩ := owned_reach ended.run ended.runs
  rw [ended.same.1] at distinct
  have was := came_nodup.mpr distinct
  exact ended.stops.found conserves accounts was (owned was).2 lookup stopped

/-- A running worker holds a stream under each token its message buffer knows, and under no
other one.
-/
theorem holds_known
    (run : Reach (step cfg crates bincode) Reports (.new cfg) state)
    (runs : state.phase.running = true)
    (distinct : ((received state.trace).map Prod.fst).Nodup) (tk : Token)
    : tk ∈ state.worker.msgBuf.serverFds.keys ↔ tk ∈ state.holdings.map Prod.fst := by
  obtain ⟨conserves, -, -⟩ := owned_reach run runs
  exact ⟨conserves.known tk, conserves.held_known (came_nodup.mpr distinct)⟩

/-- A stream a running worker holds was received under its token. -/
theorem held_received
    (run : Reach (step cfg crates bincode) Reports (.new cfg) state)
    (runs : state.phase.running = true) {held : Token × TcpStream}
    (holds : held ∈ state.holdings)
    : (held.1, held.2.fd) ∈ received state.trace := by
  obtain ⟨conserves, -, -⟩ := owned_reach run runs
  have came : held ∈ total came state.trace := by
    rw [conserves.streams]
    exact Multiset.mem_add.mpr (.inl holds)
  rw [total_came] at came
  obtain ⟨pair, member, rfl⟩ := List.mem_map.mp came
  exact member

end WorkerLoop

-----------------------------------------------------------------------------------------
-- The tokens of all workers
-----------------------------------------------------------------------------------------

/-- What a link has delivered was asked for first. -/
theorem Link.Balanced.delivered_prefix {bincode : Bincode} {link : Link} {box : Mailbox}
    (balanced : link.Balanced bincode box)
    : link.delivered <+: link.requested := by
  have front : link.delivered.map Request.ofPair <+: link.requested.map Request.ofPair :=
    ⟨_, balanced.requests.symm⟩
  obtain ⟨first, within, same⟩ := List.prefix_map_iff.mp front
  rwa [List.map_injective_iff.mpr Request.ofPair_injective same]

namespace Service

variable {cfg : Config} {crates : Crates} {bincode : Bincode} {service : Service}
  {links : List Link}

/-- The run stays in range, and `mio` reports to the workers only what is registered. -/
def Reported (cfg : Config) (crates : Crates) (bincode : Bincode) (service : Service)
    (input : ServiceInput)
    : Prop :=
  service.InRange cfg crates bincode input
  ∧ match input with
    | .server _ => True
    | .worker n input =>
        ∀ stream ∈ service.server.unixStreams[n]?,
        ∀ worker ∈ service.workers[n]?,
          (worker.at stream.stream).Reports input

instance (cfg : Config) (crates : Crates) (bincode : Bincode) (service : Service)
    (input : ServiceInput)
    : Decidable (service.Reported cfg crates bincode input) :=
  match input with
  | .server input =>
      inferInstanceAs
        (Decidable (service.InRange cfg crates bincode (.server input) ∧ True))
  | .worker n input =>
      inferInstanceAs
        (Decidable
          (service.InRange cfg crates bincode (.worker n input)
          ∧ ∀ stream ∈ service.server.unixStreams[n]?,
            ∀ worker ∈ service.workers[n]?,
              (worker.at stream.stream).Reports input))

/-- A run of the service is one of each worker, to which only what is registered is
reported.
-/
theorem worker_reported
    (run
      : Reach (step cfg crates bincode) (Reported cfg crates bincode) (.new cfg) service)
    {n : Nat} {stream : UnixStream} {worker : WorkerLoop}
    (found : service.server.unixStreams[n]? = some stream)
    (there : service.workers[n]? = some worker)
    : Reach (WorkerLoop.step cfg crates bincode) WorkerLoop.Reports (.new cfg)
        (worker.at stream.stream) :=
  worker_runs
    (fun allowed found there => allowed.2 _ found _ there) (fun _ _ => trivial) run n stream
    worker found there

/-- What all links have delivered is part of what the server asked for. Witness: induction on
the workers.
-/
theorem received_sublist {workers : List WorkerLoop}
    (hear : List.Forall₂ WorkerLoop.Hears workers links)
    (runs
      : ∀ link ∈ links, Reach (Link.step bincode) (Link.ShortResponse bincode) .new link)
    : (workers.flatMap fun worker => WorkerLoop.received worker.trace).Sublist
        (links.flatMap (·.requested)) := by
  induction hear with
  | nil => exact .refl _
  | @cons worker link _ _ hears _ ih =>
      obtain ⟨box, balanced⟩ := Link.Balanced.reached (runs link List.mem_cons_self)
      rw [List.flatMap_cons, List.flatMap_cons, ← hears.delivered]
      refine List.Sublist.append balanced.delivered_prefix.sublist (ih ?_)
      exact fun other member => runs other (List.mem_cons_of_mem _ member)

/-- So no token is handed to two workers, or twice to one. -/
theorem Linked.received_nodup (linked : service.Linked bincode links)
    (distinct : service.server.assigned.Nodup)
    : ((service.workers.flatMap fun worker => WorkerLoop.received worker.trace).map
        Prod.fst).Nodup := by
  have once := (List.nodup_append.mp (linked.asks.distinct distinct)).2.1
  exact ((received_sublist linked.workers linked.runs).map Prod.fst).nodup once

/-- Every worker has its socket. -/
theorem Linked.socket_of (linked : service.Linked bincode links) {n : Nat}
    {worker : WorkerLoop} (there : service.workers[n]? = some worker)
    : ∃ stream, service.server.unixStreams[n]? = some stream := by
  obtain ⟨link, behind, -⟩ := forall₂_getElem? linked.workers.flip there
  obtain ⟨stream, found, -⟩ := forall₂_getElem? linked.sockets behind
  exact ⟨stream, found⟩

/-- Reports aside, such a run is in range. -/
theorem reported_inRange
    (run
      : Reach (step cfg crates bincode) (Reported cfg crates bincode) (.new cfg) service)
    : Reach (step cfg crates bincode) (InRange cfg crates bincode) (.new cfg) service :=
  run.weaken fun allowed => allowed.1

/-- Each worker of a service stands, at its socket, where a run of the worker with distinct
tokens ends.
-/
theorem worker_stands
    (run
      : Reach (step cfg crates bincode) (Reported cfg crates bincode) (.new cfg) service)
    {worker : WorkerLoop} (member : worker ∈ service.workers)
    : ∃ unixSocket,
        Reach (WorkerLoop.step cfg crates bincode) WorkerLoop.Reports (.new cfg)
          (worker.at unixSocket)
        ∧ ((WorkerLoop.received worker.trace).map Prod.fst).Nodup := by
  have inRange := reported_inRange run
  obtain ⟨links, linked⟩ := linked_reach inRange
  obtain ⟨n, within, rfl⟩ := List.getElem_of_mem member
  have there := List.getElem?_eq_getElem within
  obtain ⟨stream, found⟩ := linked.socket_of there
  refine ⟨stream.stream, worker_reported run found there, ?_⟩
  have distinct := linked.received_nodup
    (Server.tracked_reached (server_inRange inRange)).distinct
  have part := sublist_flatMap (fun worker => WorkerLoop.received worker.trace) member
  exact (part.map Prod.fst).nodup distinct

/-- With workers a run of the service never panics for the lack of one. -/
theorem staffed_reach {guard : Service → ServiceInput → Prop} (workers : 0 < cfg.numWorkers)
    (run : Reach (step cfg crates bincode) guard (.new cfg) service)
    : service.server.unixStreams.length = cfg.numWorkers
      ∧ service.server.phase ≠ .panicked .noUnixStream := by
  refine run.invariant
    (fun service =>
      service.server.unixStreams.length = cfg.numWorkers
      ∧ service.server.phase ≠ .panicked .noUnixStream)
    ⟨by simp [Service.new, Server.new], by simp [Service.new, Server.new]⟩ ?_
  rintro before input after ⟨sockets, calm⟩ - taken
  cases input with
  | server input =>
      obtain ⟨server, moved, rfl⟩ := Option.map_eq_some_iff.mp taken
      have takes := Server.step_takes moved
      exact ⟨takes.workers.trans sockets, takes.dispatched sockets fun _ => workers⟩
  | worker n input =>
      obtain ⟨stream, worker, next, -, -, -, rfl⟩ := workerStep_inv taken
      exact ⟨List.length_set.trans sockets, calm⟩

/-- The accounts of the server hold against the buffers of its workers. -/
theorem accounted_reach
    (run
      : Reach (step cfg crates bincode) (InRange cfg crates bincode) (.new cfg) service)
    : service.server.Accounted bincode (service.workers.map (·.worker.msgBuf)) :=
  Net.accounted_reached (Net.promises_kept (net_reach run))

-----------------------------------------------------------------------------------------
-- No look-up fails anywhere
-----------------------------------------------------------------------------------------

/-- With some workers, in every run in range with true reports: the server never panics, no
worker panics on a look-up of a stream or of a descriptor, and over all workers together each
token is received at most once and answered at most once.
-/
theorem service_closed (cfg : Config) (workers : 0 < cfg.numWorkers) (crates : Crates)
    (bincode : Bincode)
    : ∀ service,
        Reach (step cfg crates bincode) (Reported cfg crates bincode) (.new cfg) service →
        (∀ panic, service.server.phase ≠ .panicked panic)
        ∧ (∀ worker ∈ service.workers,
          ∀ panic
              ∈ [Panic.readingStream, .writingStream, .casketResponse, .pendingStream,
                .serverFd],
            worker.phase ≠ .panicked panic)
        ∧ ((service.workers.flatMap fun worker => WorkerLoop.received worker.trace).map
            Prod.fst).Nodup
        ∧ ((service.workers.flatMap fun worker => WorkerEffect.responses worker.trace).map
            Response.token).Nodup := by
  intro service run
  have inRange := reported_inRange run
  obtain ⟨links, linked⟩ := linked_reach inRange
  have once := linked.received_nodup (Server.tracked_reached (server_inRange inRange)).distinct
  refine ⟨?_, ?_, once, ?_⟩
  · intro panic panicked
    have only := (accounted_reach inRange).calm panic panicked
    exact (staffed_reach workers run).2 (only ▸ panicked)
  · intro worker member panic lookup
    obtain ⟨unixSocket, ran, distinct⟩ := worker_stands run member
    exact WorkerLoop.lookups_found ran distinct lookup
  · rw [List.map_flatMap] at once ⊢
    have answered
        : (service.workers.flatMap fun worker =>
            (WorkerEffect.responses worker.trace).map Response.token).Subperm
            (service.workers.flatMap fun worker =>
              (WorkerLoop.received worker.trace).map Prod.fst) := by
      refine subperm_flatMap fun worker member => ?_
      obtain ⟨unixSocket, ran, distinct⟩ := worker_stands run member
      have within := WorkerLoop.answers_received ran distinct
      exact within
    obtain ⟨front, same, within⟩ := answered
    exact same.nodup_iff.mp (within.nodup once)

/-- The server and its worker hand a stream over without a look-up that fails. -/
theorem service_closed_handing
    : ∃ service : Service,
        service.workers.map (fun worker => WorkerLoop.received worker.trace)
          = [[(16777216, 9)]]
        ∧ (∀ panic, service.server.phase ≠ .panicked panic)
        ∧ ∀ worker ∈ service.workers, worker.phase ≠ .panicked .serverFd := by
  have runs
      : (exec (step manned (.onHead "0") .fixint) (Reported manned (.onHead "0") .fixint)
          (.new manned) handing).map
          (fun service =>
            service.workers.map fun worker => WorkerLoop.received worker.trace)
        = some [[(16777216, 9)]] := by
    decide +kernel
  obtain ⟨service, done, received⟩ := Option.map_eq_some_iff.mp runs
  obtain ⟨calm, found, -⟩ :=
    service_closed manned (by decide) (.onHead "0") .fixint service (Reach.of_exec _ done)
  exact ⟨service, received, calm, fun worker member => found worker member _ (by decide)⟩

-----------------------------------------------------------------------------------------
-- Every stream is where the server believes it to be
-----------------------------------------------------------------------------------------

/-- While the server runs, in every run in range with true reports: its streams in process are
the copies on the lanes and those in the loop's hands; the copies at a running worker are those
of the streams it holds; and each of these is the stream the server keeps under that token.
-/
theorem streams_located (cfg : Config) (crates : Crates) (bincode : Bincode)
    : ∀ service,
        Reach (step cfg crates bincode) (Reported cfg crates bincode) (.new cfg) service →
        service.server.phase.running →
        ∃ lanes,
          Connected bincode service.server.unixStreams
            (service.workers.map (·.worker.msgBuf)) lanes
          ∧ service.server.processingStreams.keys.Perm
              (Lane.outstanding lanes ++ service.server.phase.remaining)
          ∧ ∀ (n : Nat) (lane : Lane) (worker : WorkerLoop),
              lanes[n]? = some lane → service.workers[n]? = some worker →
              worker.phase.running = true →
              (∀ tk, tk ∈ lane.box.serverFds.keys ↔ tk ∈ worker.holdings.map Prod.fst)
              ∧ ∀ held ∈ worker.holdings,
                  service.server.processingStreams.lookup held.1 = some held.2 := by
  intro service run goes
  have inRange := reported_inRange run
  obtain ⟨links, linked⟩ := linked_reach inRange
  obtain ⟨lanes, dispatched⟩ := (accounted_reach inRange).running goes
  refine ⟨lanes, dispatched.connected, dispatched.copies, ?_⟩
  intro n lane worker at_ there runs
  have member := List.mem_of_getElem? there
  obtain ⟨unixSocket, ran, distinct⟩ := worker_stands run member
  have sound := dispatched.connected.sound lane (List.mem_of_getElem? at_)
  have same : lane.worker = worker.worker.msgBuf := by
    have left := congrArg (·[n]?) dispatched.connected.workers
    simp only [List.getElem?_map, at_, there, Option.map_some, Option.some.injEq] at left
    exact left
  have known (tk : Token) : tk ∈ lane.box.serverFds.keys ↔ tk ∈ worker.holdings.map Prod.fst := by
    rw [← sound.represents.serverFds, same]
    exact WorkerLoop.holds_known ran runs distinct tk
  refine ⟨known, ?_⟩
  rintro ⟨tk, tcpStream⟩ holds
  have copy : tk ∈ Lane.outstanding lanes := by
    have listed := (known tk).mpr (Multiset.mem_map_of_mem Prod.fst holds)
    refine List.mem_flatMap.mpr ⟨lane, List.mem_of_getElem? at_, ?_⟩
    simp only [Mailbox.outstanding, List.mem_append]
    exact .inr (.inr (.inr (.inl listed)))
  obtain ⟨kept, found⟩ := exists_lookup
    (dispatched.copies.mem_iff.mpr (List.mem_append_left _ copy))
  have asked : (tk, tcpStream.fd) ∈ links.flatMap (·.requested) := by
    have received := WorkerLoop.held_received ran runs holds
    have part := sublist_flatMap (fun worker => WorkerLoop.received worker.trace) member
    exact (received_sublist linked.workers linked.runs).subset (part.subset received)
  obtain rfl := linked.asks.carried _ asked kept found
  exact found

/-- The worker that was handed a stream holds the one the server has in process. -/
theorem streams_located_handing
    : ∃ service : Service,
        service.workers.map (·.worker.serverReadingStreams.keys) = [[16777216]]
        ∧ ∃ lanes,
            Connected .fixint service.server.unixStreams
              (service.workers.map (·.worker.msgBuf)) lanes
            ∧ service.server.processingStreams.keys.Perm
                (Lane.outstanding lanes ++ service.server.phase.remaining) := by
  have runs
      : (exec (step manned (.onHead "0") .fixint) (Reported manned (.onHead "0") .fixint)
          (.new manned) handing).map
          (fun service =>
            (service.server.phase.running,
              service.workers.map (·.worker.serverReadingStreams.keys)))
        = some (true, [[16777216]]) := by
    decide +kernel
  obtain ⟨service, done, out⟩ := Option.map_eq_some_iff.mp runs
  obtain ⟨goes, reading⟩ := Prod.mk.inj out
  obtain ⟨lanes, connected, copies, -⟩ :=
    streams_located manned (.onHead "0") .fixint service (Reach.of_exec _ done) goes
  exact ⟨service, reading, lanes, connected, copies⟩

end Service
end Casket
