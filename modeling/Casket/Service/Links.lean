import Casket.Server.KeepAlive
import Casket.Service.Sends
import Casket.Service.Talks

/-! The running service at the level of its connections: behind every worker there is a run of
one link, and the server with the message buffers of its workers is a run of the net. So what
holds of every link and of every net holds of the service.
-/

namespace Casket

open Lib

-----------------------------------------------------------------------------------------
-- What the server has asked for
-----------------------------------------------------------------------------------------

namespace Server

/-- The streams the server has asked its workers for, against its tokens and its maps: tokens
are spent once, and a stream in process is the one that was asked for under its token.
-/
structure Asks (server : Server) (asked : List (Token × RawFd)) : Prop where
  spent : (server.readingStreams.keys ++ asked.map Prod.fst).Subperm server.assigned
  carried
    : ∀ pair ∈ asked, ∀ tcpStream,
        server.processingStreams.lookup pair.1 = some tcpStream →
        tcpStream = ⟨pair.2⟩

variable {cfg : Config} {bincode : Bincode} {server after : Server}
  {asked more : List (Token × RawFd)}

theorem asks_new (workers : Nat) : (Server.new workers).Asks [] where
  spent := List.Subperm.refl _
  carried := nofun

/-- The order of what was asked for does not matter. -/
theorem Asks.perm (asks : server.Asks asked) (same : more.Perm asked) : server.Asks more where
  spent := by
    have tokens := (same.map Prod.fst).append_left server.readingStreams.keys
    exact tokens.subperm.trans asks.spent
  carried pair member := asks.carried pair (same.mem_iff.mp member)

/-- What is in the sockets does not matter. -/
theorem Asks.withSockets (asks : server.Asks asked) (unixStreams : List UnixStream)
    : Asks { server with unixStreams } asked :=
  ⟨asks.spent, asks.carried⟩

/-- With distinct tokens none is asked for twice. -/
theorem Asks.distinct (asks : server.Asks asked) (distinct : server.assigned.Nodup)
    : (server.readingStreams.keys ++ asked.map Prod.fst).Nodup := by
  obtain ⟨front, same, within⟩ := asks.spent
  exact same.nodup_iff.mp (within.nodup distinct)

/-- Every step keeps the account, with what it asks for. -/
theorem Asks.stepped (asks : server.Asks asked) (distinct : server.assigned.Nodup)
    (sends : server.Sends bincode after more)
    : after.Asks (asked ++ more) := by
  have once := asks.distinct distinct
  cases sends with
  | @nothing opened tells assigned reading processing =>
      rw [List.append_nil]
      refine ⟨?_, fun pair member tcpStream found =>
        asks.carried pair member tcpStream (processing found)⟩
      rw [assigned]
      have grown := (List.subperm_append_right (asked.map Prod.fst)).mpr reading
      have swapped
          : (server.readingStreams.keys ++ opened ++ asked.map Prod.fst).Perm
              (server.readingStreams.keys ++ asked.map Prod.fst ++ opened) := by
        rw [List.append_assoc, List.append_assoc]
        exact List.perm_append_comm.append_left _
      have spent := (List.subperm_append_right opened).mpr asks.spent
      exact grown.trans (swapped.subperm.trans spent)
  | @request n stream tk tcpStream waits found unixStreams assigned reading processing =>
      have there := mem_keys_of_lookup waits
      refine ⟨?_, ?_⟩
      · have taken := (List.perm_cons_erase there).append_right (asked.map Prod.fst)
        have moved
            : (server.readingStreams.keys.erase tk
                ++ (asked.map Prod.fst ++ [tk])).Perm
                (server.readingStreams.keys ++ asked.map Prod.fst) := by
          rw [← List.append_assoc]
          exact (List.perm_append_singleton tk _).trans taken.symm
        rw [assigned, reading, AList.keys_erase, List.map_append]
        exact moved.subperm.trans asks.spent
      · intro pair member kept looked
        rw [processing] at looked
        rcases List.mem_append.mp member with before | new
        · have other : pair.1 ≠ tk := by
            rintro rfl
            have apart := (List.nodup_append.mp once).2.2
            exact apart pair.1 there pair.1 (List.mem_map_of_mem before) rfl
          rw [AList.lookup_insert_ne other] at looked
          exact asks.carried pair before kept looked
        · obtain rfl := List.mem_singleton.mp new
          rw [AList.lookup_insert] at looked
          exact (Option.some.inj looked).symm

end Server

-----------------------------------------------------------------------------------------
-- The promises of a run
-----------------------------------------------------------------------------------------

/-- Each response the worker sends in a step is shorter than 2^32 bytes when serialized. -/
def WorkerLoop.Short (cfg : Config) (crates : Crates) (bincode : Bincode) (self : WorkerLoop)
    (input : WorkerInput)
    : Prop :=
  ∀ after ∈ self.step cfg crates bincode input,
  ∀ response ∈ WorkerEffect.responses after.trace,
    (bincode.serializeResponse response).length < 2 ^ 32

instance (cfg : Config) (crates : Crates) (bincode : Bincode) (self : WorkerLoop)
    (input : WorkerInput)
    : Decidable (self.Short cfg crates bincode input) :=
  inferInstanceAs
    (Decidable
      (∀ after ∈ self.step cfg crates bincode input,
        ∀ response ∈ WorkerEffect.responses after.trace,
          (bincode.serializeResponse response).length < 2 ^ 32))

namespace Service

/-- The server's tokens stay in range, and responses are short. -/
def InRange (cfg : Config) (crates : Crates) (bincode : Bincode) (service : Service)
    : ServiceInput → Prop
  | .server input => service.server.InRange (.input input)
  | .worker n input =>
      ∀ stream ∈ service.server.unixStreams[n]?,
      ∀ worker ∈ service.workers[n]?,
        (worker.at stream.stream).Short cfg crates bincode input

instance (cfg : Config) (crates : Crates) (bincode : Bincode) (service : Service)
    (input : ServiceInput)
    : Decidable (service.InRange cfg crates bincode input) :=
  match input with
  | .server input => inferInstanceAs (Decidable (service.server.InRange (.input input)))
  | .worker n input =>
      inferInstanceAs
        (Decidable
          (∀ stream ∈ service.server.unixStreams[n]?,
            ∀ worker ∈ service.workers[n]?,
              (worker.at stream.stream).Short cfg crates bincode input))

end Service

-----------------------------------------------------------------------------------------
-- The links of a service
-----------------------------------------------------------------------------------------

/-- The worker's buffer is the one of the link, which has delivered what it received. -/
structure WorkerLoop.Hears (state : WorkerLoop) (link : Link) : Prop where
  worker : link.worker = state.worker.msgBuf
  delivered : link.delivered = WorkerLoop.received state.trace

namespace Service

variable {cfg : Config} {crates : Crates} {bincode : Bincode} {service after : Service}
  {links : List Link}

/-- Each worker socket with its worker stands at the two ends of a link that a run of calls
reaches, and the links together were asked for what the server has sent.
-/
structure Linked (bincode : Bincode) (service : Service) (links : List Link) : Prop where
  sockets : List.Forall₂ UnixStream.AtLink service.server.unixStreams links
  workers : List.Forall₂ WorkerLoop.Hears service.workers links
  calm : ∀ link ∈ links, link.panicked = none
  runs
    : ∀ link ∈ links, Reach (Link.step bincode) (Link.ShortResponse bincode) .new link
  asks : service.server.Asks (links.flatMap (·.requested))

/-- A worker's step is its own. -/
theorem workerStep_own {n : Nat} {input : WorkerInput}
    (taken : service.workerStep cfg crates bincode n input = some after)
    : ∃ stream worker next,
        service.server.unixStreams[n]? = some stream
        ∧ service.workers[n]? = some worker
        ∧ (worker.at stream.stream).step cfg crates bincode input = some next
        ∧ input.own = true
        ∧ after
          = { server :=
                { service.server with
                  unixStreams :=
                    service.server.unixStreams.set n { stream with stream := next.unixSocket } }
              workers := service.workers.set n next } := by
  have own : input.own = true := by
    unfold workerStep at taken
    split at taken
    · split at taken
      · assumption
      · cases taken
    · cases taken
  obtain ⟨stream, worker, next, found, there, moved, same⟩ := workerStep_inv taken
  exact ⟨stream, worker, next, found, there, moved, own, same⟩

theorem linked_new (cfg : Config) (bincode : Bincode)
    : (Service.new cfg).Linked bincode (List.replicate cfg.numWorkers .new) where
  sockets := by
    refine List.forall₂_iff_get.mpr ⟨by simp [Service.new, Server.new], ?_⟩
    intro n left right
    simp only [List.get_eq_getElem, List.getElem_replicate]
    exact ⟨by simp [Service.new, Server.new, UnixStream.new, Link.new],
      by simp [Service.new, Server.new, UnixStream.new, Link.new]⟩
  workers := by
    refine List.forall₂_iff_get.mpr ⟨by simp [Service.new], ?_⟩
    intro n left right
    simp only [List.get_eq_getElem, List.getElem_replicate, Service.new]
    exact ⟨rfl, rfl⟩
  calm link member := by
    obtain rfl := (List.mem_replicate.mp member).2
    rfl
  runs link member := by
    obtain rfl := (List.mem_replicate.mp member).2
    exact .start
  asks := by
    have nothing : (List.replicate cfg.numWorkers Link.new).flatMap (·.requested) = [] := by
      refine List.flatMap_eq_nil_iff.mpr fun link member => ?_
      obtain rfl := (List.mem_replicate.mp member).2
      rfl
    rw [nothing]
    exact Server.asks_new cfg.numWorkers

/-- The link behind one worker. -/
theorem Linked.link_at (linked : service.Linked bincode links) {n : Nat} {stream : UnixStream}
    {worker : WorkerLoop} (found : service.server.unixStreams[n]? = some stream)
    (there : service.workers[n]? = some worker)
    : ∃ link,
        links[n]? = some link
        ∧ stream.AtLink link
        ∧ (worker.at stream.stream).AtLink link
        ∧ link ∈ links := by
  obtain ⟨link, behind, stands⟩ := forall₂_getElem? linked.sockets.flip found
  obtain ⟨other, same, hears⟩ := forall₂_getElem? linked.workers behind
  obtain rfl := Option.some.inj (same.symm.trans there)
  have member := List.mem_of_getElem? behind
  exact ⟨link, behind, stands,
    ⟨hears.worker, stands.stream, hears.delivered, linked.calm link member⟩, member⟩

/-- Calls on the sockets that ask for nothing are calls on the links, by induction on the
sockets.
-/
theorem tell_calls {streams after : List UnixStream}
    (tells : UnixStreams.Tell bincode streams after)
    (stand : List.Forall₂ UnixStream.AtLink streams links)
    (calm : ∀ link ∈ links, link.panicked = none)
    : ∃ nexts,
        List.Forall₂ (Link.Calls bincode false) links nexts
        ∧ List.Forall₂ UnixStream.AtLink after nexts
        ∧ (∀ link ∈ nexts, link.panicked = none)
        ∧ nexts.flatMap (·.requested) = links.flatMap (·.requested) := by
  induction tells generalizing links with
  | nil =>
      cases stand
      exact ⟨[], .nil, .nil, nofun, rfl⟩
  | cons told _ ih =>
      cases stand with
      | cons head rest =>
          obtain ⟨next, calls, at_, still, asked⟩ := told _ head (calm _ List.mem_cons_self)
          obtain ⟨nexts, more, stand, quiet, same⟩ :=
            ih rest fun link member => calm link (List.mem_cons_of_mem _ member)
          refine ⟨next :: nexts, .cons calls more, .cons at_ stand, ?_, ?_⟩
          · intro link member
            rcases List.mem_cons.mp member with rfl | later
            · exact still
            · exact quiet link later
          · rw [List.flatMap_cons, List.flatMap_cons, same, asked, List.append_nil]

/-- Calls of the server's end are not heard by the worker until it reads. -/
theorem hears_calls {worker : WorkerLoop} {link next : Link} (hears : worker.Hears link)
    (calls : link.Calls bincode false next)
    : worker.Hears next := by
  obtain ⟨same, delivered⟩ := calls.byServer
  exact ⟨same.trans hears.worker, delivered.trans hears.delivered⟩

/-- A step of the server keeps the links, by calls at its end of each. -/
theorem Linked.server_stepped (linked : service.Linked bincode links)
    (distinct : service.server.assigned.Nodup) {input : ServerInput} {server : Server}
    (taken : service.server.step cfg bincode input = some server)
    : ∃ asked nexts,
        service.server.Sends bincode server asked
        ∧ Linked bincode { service with server } nexts
        ∧ (nexts.flatMap (·.requested)).Perm (links.flatMap (·.requested) ++ asked) := by
  obtain ⟨asked, sends⟩ := Server.step_sends taken
  have asks := linked.asks.stepped distinct sends
  refine ⟨asked, ?_⟩
  have sent := sends
  cases sends with
  | nothing tells =>
      obtain ⟨nexts, calls, stand, calm, same⟩ := tell_calls tells linked.sockets linked.calm
      have hear : List.Forall₂ WorkerLoop.Hears service.workers nexts :=
        forall₂_chain
          (fun worker link next (hears : worker.Hears link)
              (made : link.Calls bincode false next) =>
            hears_calls hears made)
          linked.workers calls
      rw [List.append_nil] at asks ⊢
      rw [← same] at asks
      refine ⟨nexts, sent, ⟨stand, hear, calm, ?_, asks⟩, .of_eq same⟩
      intro next member
      obtain ⟨link, among, made⟩ := forall₂_mem calls member
      exact made.extends (linked.runs link among)
  | @request n stream tk tcpStream waits found unixStreams =>
      obtain ⟨link, behind, stands⟩ := forall₂_getElem? linked.sockets.flip found
      have member := List.mem_of_getElem? behind
      obtain ⟨next, calls, at_, calm, requested⟩ :=
        stream.tells_msgSendTcpStream bincode tk tcpStream.fd link stands
          (linked.calm link member)
      have grown := flatMap_set_perm behind requested
      refine ⟨links.set n next, sent, ⟨?_, ?_, ?_, ?_, asks.perm grown⟩, grown⟩
      · rw [unixStreams]
        exact forall₂_set_both linked.sockets n at_
      · obtain ⟨worker, there, hears⟩ := forall₂_getElem? linked.workers behind
        have both := forall₂_set_both linked.workers n (hears_calls hears calls)
        obtain ⟨within, rfl⟩ := List.getElem?_eq_some_iff.mp there
        rwa [List.set_getElem_self] at both
      · intro other among
        rcases List.mem_or_eq_of_mem_set among with before | rfl
        · exact linked.calm other before
        · exact calm
      · intro other among
        rcases List.mem_or_eq_of_mem_set among with before | rfl
        · exact linked.runs other before
        · exact calls.extends (linked.runs link member)

/-- A step of a worker is calls at its end of its own link. -/
theorem Linked.worker_called (linked : service.Linked bincode links) {n : Nat}
    {input : WorkerInput} {stream : UnixStream} {worker next : WorkerLoop}
    (found : service.server.unixStreams[n]? = some stream)
    (there : service.workers[n]? = some worker) (own : input.own = true)
    (short : (worker.at stream.stream).Short cfg crates bincode input)
    (moved : (worker.at stream.stream).step cfg crates bincode input = some next)
    : ∃ link following : Link,
        links[n]? = some link
        ∧ stream.AtLink link
        ∧ link.worker = worker.worker.msgBuf
        ∧ link.Calls bincode true following
        ∧ next.AtLink following := by
  obtain ⟨link, behind, stands, hears, member⟩ := linked.link_at found there
  obtain ⟨box, balanced⟩ := Link.Balanced.reached (linked.runs link member)
  obtain ⟨following, calls, at_⟩ :=
    (WorkerLoop.step_talks moved own).calls hears balanced (short next moved)
  exact ⟨link, following, behind, stands, hears.worker, calls, at_⟩

/-- So it keeps the links. -/
theorem Linked.worker_stepped (linked : service.Linked bincode links) {n : Nat}
    {input : WorkerInput} {stream : UnixStream} {worker next : WorkerLoop}
    (found : service.server.unixStreams[n]? = some stream)
    (there : service.workers[n]? = some worker) (own : input.own = true)
    (short : (worker.at stream.stream).Short cfg crates bincode input)
    (moved : (worker.at stream.stream).step cfg crates bincode input = some next)
    : ∃ nexts,
        Linked bincode
          { server :=
              { service.server with
                unixStreams :=
                  service.server.unixStreams.set n { stream with stream := next.unixSocket } }
            workers := service.workers.set n next }
          nexts
        ∧ (nexts.flatMap (·.requested)).Perm (links.flatMap (·.requested)) := by
  obtain ⟨link, following, behind, stands, -, calls, at_⟩ :=
    linked.worker_called found there own short moved
  obtain ⟨server, requested⟩ := calls.byWorker
  have same : ((links.set n following).flatMap (·.requested)).Perm
      (links.flatMap (·.requested)) := by
    have grown := flatMap_set_perm behind (requested.trans (List.append_nil _).symm)
    rwa [List.append_nil] at grown
  refine ⟨links.set n following, ⟨?_, ?_, ?_, ?_, (linked.asks.perm same).withSockets _⟩, same⟩
  · refine forall₂_set_both linked.sockets n ⟨server.trans stands.server, at_.socket⟩
  · exact forall₂_set_both linked.workers n ⟨at_.worker, at_.delivered⟩
  · intro other among
    rcases List.mem_or_eq_of_mem_set among with before | rfl
    · exact linked.calm other before
    · exact at_.calm
  · intro other among
    rcases List.mem_or_eq_of_mem_set among with before | rfl
    · exact linked.runs other before
    · exact calls.extends (linked.runs link (List.mem_of_getElem? behind))

-----------------------------------------------------------------------------------------
-- Whole runs
-----------------------------------------------------------------------------------------

/-- A run of the service in range is one of its server. -/
theorem server_inRange
    (run
      : Reach (step cfg crates bincode) (InRange cfg crates bincode) (.new cfg) service)
    : Reach (Server.openStep cfg bincode) Server.InRange (.new cfg.numWorkers)
        service.server :=
  server_runs (fun allowed => allowed) (fun _ _ _ => trivial) run

/-- Every service that a run in range reaches has its links. Witness: induction on the run; the
tokens of the server are distinct in every state before.
-/
theorem linked_reach
    (run
      : Reach (step cfg crates bincode) (InRange cfg crates bincode) (.new cfg) service)
    : ∃ links, service.Linked bincode links := by
  induction run with
  | start => exact ⟨_, linked_new cfg bincode⟩
  | @next before input after earlier allowed taken ih =>
      obtain ⟨links, linked⟩ := ih
      cases input with
      | server input =>
          obtain ⟨server, moved, rfl⟩ := Option.map_eq_some_iff.mp taken
          have tracked := Server.tracked_reached (server_inRange earlier)
          obtain ⟨asked, nexts, -, stepped, -⟩ :=
            linked.server_stepped tracked.distinct moved
          exact ⟨nexts, stepped⟩
      | worker n input =>
          obtain ⟨stream, worker, next, found, there, moved, own, rfl⟩ := workerStep_own taken
          obtain ⟨nexts, stepped, -⟩ :=
            linked.worker_stepped found there own (allowed _ found _ there) moved
          exact ⟨nexts, stepped⟩

end Service
end Casket
