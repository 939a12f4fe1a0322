import Casket.Service.Processes

/-! What all processes together do for the clients: each request is served once, and every
client has only answers to what was read from it, whichever worker its connection is handed to.
-/

namespace Casket

open Lib

-----------------------------------------------------------------------------------------
-- What one process was given and what it answered
-----------------------------------------------------------------------------------------

namespace WorkerLoop

variable {cfg : Config} {crates : Crates} {bincode : Bincode} {state : WorkerLoop}

/-- What the accounts of a worker say of the requests it sent. -/
theorem Accounts.sends_came (accounts : state.Accounts)
    : total WorkerEffect.sends state.trace
      ≤ (total WorkerEffect.came state.trace).map Prod.fst := by
  have sent : state.ledger.sent ≤ state.ledger.queued + state.ledger.sent + state.ledger.early :=
    (Multiset.le_add_left _ _).trans (Multiset.le_add_right _ _)
  exact sent.trans accounts.balanced.came

/-- Every request a worker sends to its threads came to it, each token as often. -/
theorem sends_came {guard : WorkerLoop → WorkerInput → Prop}
    (run : Reach (step cfg crates bincode) guard (.new cfg) state)
    : total WorkerEffect.sends state.trace
      ≤ (total WorkerEffect.came state.trace).map Prod.fst := by
  cases runs : state.phase.running with
  | true => exact (accounts_reach run runs).sends_came
  | false =>
      obtain ⟨before, input, ended⟩ := stopped_reach run runs
      obtain ⟨effects, trace, passes⟩ := ended.leaves.trace
      have silent (effect : WorkerEffect) (member : effect ∈ effects)
          : effect.sends = 0 ∧ effect.came = 0 := by
        have passed := passes effect member
        cases effect with
        | read | wrote | logged => exact ⟨rfl, rfl⟩
        | _ => cases passed
      have sends : total WorkerEffect.sends effects = 0 :=
        total_eq_zero fun effect member => (silent effect member).1
      have comes : total WorkerEffect.came effects = 0 :=
        total_eq_zero fun effect member => (silent effect member).2
      rw [trace, total_append, total_append, sends, comes, add_zero, add_zero]
      exact (accounts_reach ended.run ended.runs).sends_came

/-- What came to a worker is what it received. -/
theorem came_received (trace : List WorkerEffect)
    : (total WorkerEffect.came trace).map Prod.fst
      = ((received trace).map Prod.fst : List Token) := by
  rw [total_came, Multiset.map_coe, List.map_map]
  rfl

end WorkerLoop

namespace WorkerProcess

variable {parser : StatusParser} {cfg : Config} {crates : Crates} {bincode : Bincode}
  {process : WorkerProcess}

/-- The requests handed to the threads of a process were received by it, each once. -/
theorem handed_subperm
    (run : Reach (step parser cfg crates bincode) (fun _ _ => True) (.new cfg) process)
    : ((process.threads.flatMap PythonThread.handed).map Prod.fst).Subperm
        ((WorkerLoop.received process.loop.trace).map Prod.fst) := by
  have sent := WorkerLoop.sends_came (manned_reach run).1
  rw [← (crewed_reach run).handed, WorkerLoop.came_received] at sent
  exact Multiset.coe_le.mp sent

/-- So were those it answered, if no token came twice. -/
theorem answered_subperm
    (run : Reach (step parser cfg crates bincode) (fun _ _ => True) (.new cfg) process)
    (distinct : ((WorkerLoop.received process.loop.trace).map Prod.fst).Nodup)
    : (process.answered.map Job.key).Subperm
        ((WorkerLoop.received process.loop.trace).map Prod.fst) := by
  have once := WorkerLoop.came_nodup.mpr distinct
  obtain ⟨kept, -⟩ := portions_reach run once
  refine (bodied_reach run once).once.subperm ?_
  intro key known
  obtain ⟨job, answered, rfl⟩ := List.mem_map.mp known
  have came := kept.came _ (kept.answered job answered)
  rw [WorkerLoop.came_received] at came
  exact Multiset.mem_coe.mp came

/-- What a client has does not depend on the socket of its worker. -/
theorem Owns.at_socket {unixSocket : UnixSocket} {tk : Token}
    (owns : (process.at unixSocket).Owns parser cfg tk)
    : process.Owns parser cfg tk := by
  cases owns with
  | refused is front => exact .refused is front
  | answered known key front => exact .answered known key front

end WorkerProcess

-----------------------------------------------------------------------------------------
-- All processes together
-----------------------------------------------------------------------------------------

namespace ProcessTree

variable {parser : StatusParser} {cfg : Config} {crates : Crates} {bincode : Bincode}
  {tree : ProcessTree} {service : Service}

theorem Stands.trace {worker : WorkerProcess} {loop : WorkerLoop} (stands : Stands worker loop)
    : loop.trace = worker.loop.trace := by
  have same := congrArg WorkerLoop.trace (stands worker.loop.unixSocket)
  exact same

/-- Processes have received what the workers that stand for them have, by induction on them. -/
theorem received_stands {workers : List WorkerProcess} {loops : List WorkerLoop}
    (stand : List.Forall₂ Stands workers loops)
    : (loops.flatMap fun loop => WorkerLoop.received loop.trace)
      = workers.flatMap fun worker => WorkerLoop.received worker.loop.trace := by
  induction stand with
  | nil => rfl
  | cons stands _ ih => rw [List.flatMap_cons, List.flatMap_cons, ih, stands.trace]

/-- Over all processes together no token is received twice. -/
theorem received_nodup
    (run
      : Reach (step parser cfg crates bincode) (Reported cfg crates bincode) (.new cfg) tree)
    : ((tree.workers.flatMap fun worker => WorkerLoop.received worker.loop.trace).map
        Prod.fst).Nodup := by
  obtain ⟨service, reached, shows⟩ := shows_reach run
  have inRange := Service.reported_inRange reached
  obtain ⟨links, linked⟩ := Service.linked_reach inRange
  have tracked := Server.tracked_reached (Service.server_inRange inRange)
  exact received_stands shows.workers ▸ linked.received_nodup tracked.distinct

/-- Each process stands, at its socket, where a run of it with distinct tokens ends. -/
theorem worker_stands
    (run
      : Reach (step parser cfg crates bincode) (Reported cfg crates bincode) (.new cfg) tree)
    {worker : WorkerProcess} (member : worker ∈ tree.workers)
    : ∃ unixSocket,
        Reach (WorkerProcess.step parser cfg crates bincode) (fun _ _ => True) (.new cfg)
          (worker.at unixSocket)
        ∧ ((WorkerLoop.received worker.loop.trace).map Prod.fst).Nodup := by
  obtain ⟨service, reached, shows⟩ := shows_reach run
  obtain ⟨links, linked⟩ := Service.linked_reach (Service.reported_inRange reached)
  obtain ⟨n, within, rfl⟩ := List.getElem_of_mem member
  have there := List.getElem?_eq_getElem within
  obtain ⟨loop, among, -⟩ := forall₂_getElem? shows.workers.flip there
  obtain ⟨stream, found⟩ := linked.socket_of among
  rw [shows.server] at found
  refine ⟨stream.stream, worker_runs run n stream _ found there, ?_⟩
  have part :=
    sublist_flatMap (fun worker : WorkerProcess => WorkerLoop.received worker.loop.trace) member
  exact (part.map Prod.fst).nodup (received_nodup run)

-----------------------------------------------------------------------------------------
-- What the processes do for their clients
-----------------------------------------------------------------------------------------

/-- Over all processes and all their threads together no two requests that threads were handed
have one token, and no token is answered twice. Every request that a thread was handed was
read from a client that the worker had received.
-/
theorem requests_once (parser : StatusParser) (cfg : Config) (crates : Crates)
    (bincode : Bincode)
    : ∀ tree,
        Reach (step parser cfg crates bincode) (Reported cfg crates bincode) (.new cfg) tree →
        ((tree.workers.flatMap fun worker =>
            worker.threads.flatMap PythonThread.handed).map Prod.fst).Nodup
        ∧ (tree.workers.flatMap fun worker => worker.answered.map Job.key).Nodup
        ∧ ∀ worker ∈ tree.workers, ∀ thread ∈ worker.threads, ∀ request ∈ thread.handed,
            request ∈ worker.read
            ∧ request.1 ∈ (WorkerLoop.received worker.loop.trace).map Prod.fst := by
  intro tree run
  have once := received_nodup run
  rw [List.map_flatMap] at once ⊢
  have handed
      : (tree.workers.flatMap fun worker =>
            (worker.threads.flatMap PythonThread.handed).map Prod.fst).Subperm
          (tree.workers.flatMap fun worker =>
            (WorkerLoop.received worker.loop.trace).map Prod.fst) := by
    refine subperm_flatMap fun worker member => ?_
    obtain ⟨unixSocket, ran, -⟩ := worker_stands run member
    have within := WorkerProcess.handed_subperm ran
    exact within
  have answered
      : (tree.workers.flatMap fun worker => worker.answered.map Job.key).Subperm
          (tree.workers.flatMap fun worker =>
            (WorkerLoop.received worker.loop.trace).map Prod.fst) := by
    refine subperm_flatMap fun worker member => ?_
    obtain ⟨unixSocket, ran, distinct⟩ := worker_stands run member
    have within := WorkerProcess.answered_subperm ran distinct
    exact within
  refine ⟨?_, ?_, ?_⟩
  · obtain ⟨front, same, within⟩ := handed
    exact same.nodup_iff.mp (within.nodup once)
  · obtain ⟨front, same, within⟩ := answered
    exact same.nodup_iff.mp (within.nodup once)
  · intro worker member thread among request given
    obtain ⟨unixSocket, ran, distinct⟩ := worker_stands run member
    obtain ⟨kept, -⟩ := WorkerProcess.portions_reach ran (WorkerLoop.came_nodup.mpr distinct)
    have read := kept.handed thread among given
    have came := kept.came request read
    rw [WorkerLoop.came_received] at came
    exact ⟨read, Multiset.mem_coe.mp came⟩

theorem requests_once_answering
    : ∃ (tree : ProcessTree) (worker : WorkerProcess) (thread : PythonThread)
        (request : Token × HttpRequest),
        worker ∈ tree.workers
        ∧ thread ∈ worker.threads
        ∧ request ∈ thread.handed
        ∧ request ∈ worker.read := by
  obtain ⟨tree, run, worker, member, -, -, handed⟩ := answering_answered
  have given
      : 16777216 ∈ worker.threads.flatMap fun thread => thread.handed.map Prod.fst := by
    rw [handed]
    exact List.mem_cons_self
  obtain ⟨thread, among, key⟩ := List.mem_flatMap.mp given
  obtain ⟨request, has, -⟩ := List.mem_map.mp key
  have read := (requests_once _ _ _ _ tree run).2.2 worker member thread among request has
  exact ⟨tree, worker, thread, request, member, among, has, read.1⟩

/-- A client that has accepted bytes of a worker is the one whose stream the server handed to
that worker under their token: they were written to that stream, and no other client has its
connection, at the server or at any worker. The bytes are the front of a casket response or of
the response to the one request read from it; if it is reported as written, all of that.
-/
theorem answers_routed (parser : StatusParser) (cfg : Config) (crates : Crates)
    (bincode : Bincode)
    : ∀ tree,
        Reach (step parser cfg crates bincode) (Reported cfg crates bincode) (.new cfg) tree →
        ∀ worker ∈ tree.workers, ∀ tk,
          worker.accepted tk ≠ [] →
          ∃ fd,
            (tk, fd) ∈ WorkerLoop.received worker.loop.trace
            ∧ (∀ tcpStream bytes, (tk, tcpStream, bytes) ∈ worker.writes → tcpStream = ⟨fd⟩)
            ∧ (∀ kept tcpStream,
              tree.server.Holds kept tcpStream →
              connection kept = connection tk →
              tcpStream = ⟨fd⟩)
            ∧ (∀ other ∈ tree.workers, ∀ pair ∈ WorkerLoop.received other.loop.trace,
              connection pair.1 = connection tk → pair.2 = fd)
            ∧ worker.Owns parser cfg tk
            ∧ (∀ job ∈ worker.answered,
              job.key = tk → ∀ httpReq, (tk, httpReq) ∈ worker.read ↔ httpReq = job.req)
            ∧ ∀ response,
                .answered .doneWrite response ∈ worker.loop.trace →
                response.token = tk →
                worker.Done parser cfg tk := by
  intro tree run worker member tk some_
  obtain ⟨unixSocket, ran, distinct⟩ := worker_stands run member
  have once := WorkerLoop.came_nodup.mpr distinct
  obtain ⟨kept, -⟩ := WorkerProcess.portions_reach ran once
  have came : tk ∈ (total WorkerEffect.came worker.loop.trace).map Prod.fst := by
    by_contra absent
    exact some_ (kept.untouched tk absent).accepted
  rw [WorkerLoop.came_received] at came
  obtain ⟨⟨key, fd⟩, received, rfl⟩ := List.mem_map.mp (Multiset.mem_coe.mp came)
  obtain ⟨service, reached, shows⟩ := shows_reach run
  obtain ⟨links, clients, linked, numbered⟩ :=
    Service.numbered_reach (Service.reported_inRange reached)
  have client {other : WorkerProcess} {pair : Token × RawFd} (among : other ∈ tree.workers)
      (has : pair ∈ WorkerLoop.received other.loop.trace)
      : clients (connection pair.1) = ⟨pair.2⟩ := by
    have part :=
      sublist_flatMap (fun worker : WorkerProcess => WorkerLoop.received worker.loop.trace) among
    have asked := Service.received_sublist linked.workers linked.runs
    rw [received_stands shows.workers] at asked
    exact numbered.sent pair (asked.subset (part.subset has))
  refine ⟨fd, received, ?_, ?_, ?_, (kept.owns key).at_socket, ?_, ?_⟩
  · intro tcpStream bytes written
    have there : (key, ⟨fd⟩) ∈ total WorkerEffect.came worker.loop.trace := by
      rw [WorkerLoop.total_came]
      exact List.mem_map_of_mem (f := WorkerLoop.owned) received
    exact ((WorkerProcess.received_iff ran once tcpStream bytes written ⟨fd⟩).mp there).symm
  · intro held tcpStream holds same
    rw [← shows.server] at holds
    rw [← numbered.holds holds, same]
    exact client member received
  · intro other among pair has same
    have both := client among has
    rw [same, client member received] at both
    exact (TcpStream.mk.inj both).symm
  · intro job known is httpReq
    subst is
    have read := kept.answered job known
    constructor
    · intro other
      exact (Prod.mk.inj (List.inj_on_of_nodup_map kept.once other read rfl)).2
    · rintro rfl
      exact read
  · rintro response told rfl
    exact kept.done response told

theorem answers_routed_answering
    : ∃ (worker : WorkerProcess) (fd : RawFd),
        (worker.accepted 16777216).length = 94
        ∧ (16777216, fd) ∈ WorkerLoop.received worker.loop.trace
        ∧ worker.Owns .ok Service.manned 16777216 := by
  obtain ⟨tree, run, worker, member, size, -, -⟩ := answering_answered
  have some_ : worker.accepted 16777216 ≠ [] := by
    intro none
    rw [none] at size
    cases size
  obtain ⟨fd, received, -, -, -, owns, -, -⟩ :=
    answers_routed _ _ _ _ tree run worker member 16777216 some_
  exact ⟨worker, fd, size, received, owns⟩

end ProcessTree
end Casket
