import Casket.Service.Links

/-! The service refines the two models of its protocol: forgetting the loops of the workers
leaves a run of the net, and looking at one connection leaves a run of its link.
-/

namespace Casket

open Lib

-----------------------------------------------------------------------------------------
-- Calls on a link are calls in the net
-----------------------------------------------------------------------------------------

namespace Net

variable {cfg : Config} {bincode : Bincode} {net : Net}

/-- The net with what a link holds at one position. -/
def withLink (net : Net) (n : Nat) (stream : UnixStream) (link : Link) : Net where
  server :=
    { net.server with
      unixStreams := net.server.unixStreams.set n { stream with stream := link.socket } }
  workers := net.workers.set n link.worker

/-- A call by a worker at its end of a link, made in the net that the link is part of. -/
theorem workerStep_call {n : Nat} {stream : UnixStream} {worker : WorkerMsgBuffer}
    {link next : Link} {op : LinkOp} (found : net.server.unixStreams[n]? = some stream)
    (behind : net.workers[n]? = some worker) (alike : link.Alike (stream.link worker))
    (side : op.byWorker = true) (taken : link.step bincode op = some next)
    (calm : next.panicked = none)
    : net.workerStep bincode n op = some (net.withLink n stream next) := by
  obtain ⟨following, called, same⟩ := alike.stepped taken
  have quiet : following.panicked.isNone = true := by
    rw [same.panicked, calm]
    rfl
  simp only [workerStep, found, behind, called, side, quiet, Bool.and_self, if_true,
    same.socket, same.worker, withLink]

/-- Calls at the worker's end of a link are a run of the net. Witness: induction on the calls;
the net replaces the socket and the buffer at one position again and again.
-/
theorem calls_run {n : Nat} {stream : UnixStream} {worker : WorkerMsgBuffer}
    {link last : Link} (found : net.server.unixStreams[n]? = some stream)
    (behind : net.workers[n]? = some worker) (alike : link.Alike (stream.link worker))
    (calls : link.Calls bincode true last) (calm : last.panicked = none)
    : Reach (Net.step cfg bincode) (Net.InRange bincode) net (net.withLink n stream last) := by
  obtain ⟨within, at_⟩ := List.getElem?_eq_some_iff.mp found
  obtain ⟨among, there⟩ := List.getElem?_eq_some_iff.mp behind
  induction calls with
  | start =>
      have sockets
          : net.server.unixStreams.set n { stream with stream := link.socket }
            = net.server.unixStreams := by
        rw [← alike.socket]
        exact at_ ▸ List.set_getElem_self within
      have workers : net.workers.set n link.worker = net.workers := by
        rw [← alike.worker]
        exact there ▸ List.set_getElem_self among
      rw [withLink, sockets, workers]
      exact .start
  | @next before op after earlier allowed taken ih =>
      have quiet := Link.step_calm taken
      have server := (Link.Calls.byWorker earlier).1
      let socket : UnixStream := { stream with stream := before.socket }
      have same : before.Alike (socket.link before.worker) :=
        ⟨alike.server.trans server.symm, rfl, rfl, quiet.symm⟩
      have held : (net.withLink n stream before).server.unixStreams[n]? = some socket :=
        List.getElem?_set_self within
      have stood : (net.withLink n stream before).workers[n]? = some before.worker :=
        List.getElem?_set_self among
      have called := workerStep_call held stood same allowed.1 taken calm
      have twice
          : (net.withLink n stream before).withLink n socket after
            = net.withLink n stream after := by
        simp only [withLink, List.set_set, socket]
      rw [twice] at called
      have short : (net.withLink n stream before).InRange bincode (.worker n op) := by
        intro other looked buffer waits
        obtain rfl := Option.some.inj (held.symm.trans looked)
        obtain rfl := Option.some.inj (stood.symm.trans waits)
        exact same.short allowed.2
      exact (ih quiet).next short called

end Net
-----------------------------------------------------------------------------------------
-- A run of the service is a run of the net
-----------------------------------------------------------------------------------------

namespace Service

variable {cfg : Config} {crates : Crates} {bincode : Bincode} {service after : Service}

/-- The server and the message buffers of its workers. -/
def net (service : Service) : Net where
  server := service.server
  workers := service.workers.map (·.worker.msgBuf)

theorem net_new (cfg : Config) : (Service.new cfg).net = .new cfg.numWorkers := by
  simp only [net, Service.new, Net.new, List.map_replicate, WorkerLoop.new]

/-- A step of the service is a run of the net: one step of its server, or the calls of one
worker.
-/
theorem net_step {links : List Link} (linked : service.Linked bincode links)
    {input : ServiceInput} (allowed : service.InRange cfg crates bincode input)
    (taken : service.step cfg crates bincode input = some after)
    : Reach (Net.step cfg bincode) (Net.InRange bincode) service.net after.net := by
  cases input with
  | server input =>
      obtain ⟨server, moved, rfl⟩ := Option.map_eq_some_iff.mp taken
      have stepped
          : Net.step cfg bincode service.net (.server input)
            = some { service.net with server } :=
        congrArg (Option.map _) moved
      have inRange : service.net.InRange bincode (.server input) := allowed
      exact Reach.start.next inRange stepped
  | worker n input =>
      obtain ⟨stream, worker, next, found, there, moved, own, rfl⟩ := workerStep_own taken
      obtain ⟨link, following, -, stands, hears, calls, at_⟩ :=
        linked.worker_called found there own (allowed _ found _ there) moved
      have behind : service.net.workers[n]? = some worker.worker.msgBuf := by
        rw [net, List.getElem?_map, there]
        rfl
      have alike : link.Alike (stream.link worker.worker.msgBuf) :=
        ⟨stands.server.symm, stands.stream.symm, hears.symm, (calls.calm at_.calm).symm⟩
      have run := @Net.calls_run cfg _ _ _ _ _ _ _ found behind alike calls at_.calm
      have same
          : service.net.withLink n stream following
            = net
                { server :=
                    { service.server with
                      unixStreams :=
                        service.server.unixStreams.set n
                          { stream with stream := next.unixSocket } }
                  workers := service.workers.set n next } := by
        simp only [Net.withLink, net, at_.socket, at_.worker, List.map_set]
      rwa [same] at run

/-- Every run of the service in range is one of the net, by the steps of the server and the
calls of the workers.
-/
theorem net_reach
    (run
      : Reach (step cfg crates bincode) (InRange cfg crates bincode) (.new cfg) service)
    : Reach (Net.step cfg bincode) (Net.InRange bincode) (.new cfg.numWorkers)
        service.net := by
  have explained := run.simulates (fun service net => service.net = net) (net_new cfg)
    (fun {before input after net} earlier (_ : Reach (Net.step cfg bincode) _ _ net) same
        allowed taken => by
      obtain ⟨links, linked⟩ := linked_reach earlier
      exact ⟨after.net, same ▸ net_step linked allowed taken, rfl⟩)
  obtain ⟨net, ran, rfl⟩ := explained
  exact ran

/-- Every run of the service in range refines both models of its protocol: the server with its
workers' buffers is a run of the net, and at each worker stands a run of a link whose two ends
are the server's socket and the worker, which has received what the link delivered of what the
server asked for.
-/
theorem service_refines (cfg : Config) (crates : Crates) (bincode : Bincode)
    : ∀ service,
        Reach (step cfg crates bincode) (InRange cfg crates bincode) (.new cfg) service →
        Reach (Net.step cfg bincode) (Net.InRange bincode) (.new cfg.numWorkers) service.net
        ∧ ∃ links, service.Linked bincode links :=
  fun _ run => ⟨net_reach run, linked_reach run⟩

/-- One stream is handed to the worker through its link. -/
theorem service_refines_handing
    : ∃ service : Service,
        service.workers.map (fun worker => WorkerLoop.received worker.trace)
          = [[(16777216, 9)]]
        ∧ Reach (Net.step manned .fixint) (Net.InRange .fixint) (.new 1) service.net := by
  have runs
      : (exec (step manned (.onHead "0") .fixint) (InRange manned (.onHead "0") .fixint)
          (.new manned) handing).map
          (fun service =>
            service.workers.map fun worker => WorkerLoop.received worker.trace)
        = some [[(16777216, 9)]] := by
    decide +kernel
  obtain ⟨service, done, received⟩ := Option.map_eq_some_iff.mp runs
  obtain ⟨run, -⟩ :=
    service_refines manned (.onHead "0") .fixint service (Reach.of_exec _ done)
  exact ⟨service, received, run⟩

end Service
end Casket
