import Casket.Service.Closed

/-! Which client a stream belongs to. The server numbers its connections, and a token tells the
number; whoever holds a stream under a token, and whenever, it is the stream that was accepted
under that number.
-/

namespace Casket

open Lib

namespace Server

/-- The server holds the stream under the token, waiting or in process. -/
def Holds (server : Server) (tk : Token) (tcpStream : TcpStream) : Prop :=
  server.readingStreams.lookup tk = some tcpStream
  ∨ server.processingStreams.lookup tk = some tcpStream

/-- The streams held and those asked for are the clients' with the numbers of their tokens. -/
structure Numbered (server : Server) (asked : List (Token × RawFd))
    (clients : Nat → TcpStream)
    : Prop where
  holds : ∀ {tk tcpStream}, server.Holds tk tcpStream → clients (connection tk) = tcpStream
  sent : ∀ pair ∈ asked, clients (connection pair.1) = ⟨pair.2⟩
  counted : ∀ pair ∈ asked, connection pair.1 ≤ server.clientStreamCount

variable {cfg : Config} {bincode : Bincode} {server after : Server} {input : ServerInput}
  {asked more : List (Token × RawFd)} {clients : Nat → TcpStream}

/-- A held token is open. -/
theorem Holds.opened {tk : Token} {tcpStream : TcpStream} (holds : server.Holds tk tcpStream)
    : tk ∈ server.openTks := by
  rcases holds with waits | inProcess
  · exact List.mem_append_left _ (mem_keys_of_lookup waits)
  · exact List.mem_append_right _ (mem_keys_of_lookup inProcess)

/-- What a step that accepts no client holds was held under a token of the same connection. -/
structure Stays (server after : Server) : Prop where
  count : after.clientStreamCount = server.clientStreamCount
  holds
    : ∀ {tk tcpStream}, after.Holds tk tcpStream →
        ∃ before, connection before = connection tk ∧ server.Holds before tcpStream

/-- What a step that accepts a client holds was held, or is the client. -/
structure Accepts (server after : Server) (tcpStream : TcpStream) : Prop where
  count : after.clientStreamCount = server.clientStreamCount + 1
  holds
    : ∀ {tk kept}, after.Holds tk kept →
        server.Holds tk kept
        ∨ connection tk = server.clientStreamCount + 1 ∧ kept = tcpStream

/-- Maps that hold no more than before. -/
theorem Stays.fewer (count : after.clientStreamCount = server.clientStreamCount)
    (holds : ∀ {tk tcpStream}, after.Holds tk tcpStream → server.Holds tk tcpStream)
    : server.Stays after :=
  ⟨count, fun held => ⟨_, rfl, holds held⟩⟩

/-- The same maps. -/
theorem Stays.same (count : after.clientStreamCount = server.clientStreamCount)
    (reading : after.readingStreams = server.readingStreams)
    (processing : after.processingStreams = server.processingStreams)
    : server.Stays after := by
  refine .fewer count fun held => ?_
  unfold Holds at held ⊢
  rwa [reading, processing] at held

/-- The next token of a connection, in its range, has its number. -/
theorem connection_keepAlive {tk : Token} (inRange : tk.toNat % 2 ^ 24 + 2 ^ 7 < 2 ^ 24)
    : connection (tk + keepAliveCountInc) = connection tk := by
  have bound := tk.toNat_lt
  have step : keepAliveCountInc.toNat = 2 ^ 7 := rfl
  unfold connection
  rw [UInt64.toNat_add, step]
  omega

/-- The first token of a connection has its number. -/
theorem connection_nextClientToken (few : server.clientStreamCount + 1 < 2 ^ 40)
    : connection server.nextClientToken = server.clientStreamCount + 1 := by
  unfold connection nextClientToken newStreamCountInc
  rw [UInt64.toNat_ofNat']
  omega

/-- A stream handed back stays with its connection. -/
theorem keepAliveStream_stays (server : Server) {tk : Token} (registers : Bool)
    (inRange : tk.toNat % 2 ^ 24 + 2 ^ 7 < 2 ^ 24)
    : server.Stays (server.keepAliveStream tk registers) := by
  unfold Server.keepAliveStream
  split
  · exact .same rfl rfl rfl
  · next tcpStream inProcess =>
      simp only
      split
      · exact .fewer rfl fun held => held.imp id lookup_of_erase
      · split
        · refine ⟨rfl, ?_⟩
          intro other kept held
          rcases held with waits | processes
          · rcases lookup_insert_cases waits with ⟨rfl, rfl⟩ | ⟨-, before⟩
            · exact ⟨tk, (connection_keepAlive inRange).symm, .inr inProcess⟩
            · exact ⟨other, rfl, .inl before⟩
          · exact ⟨other, rfl, .inr (lookup_of_erase processes)⟩
        · exact .fewer rfl fun held => held.imp id lookup_of_erase

/-- An accepted client gets the next number. -/
theorem acceptStream_accepts (server : Server) (cfg : Config) (io : EventIo)
    (few : io.accept.isSome → server.clientStreamCount + 1 < 2 ^ 40)
    : server.Stays (server.acceptStream cfg io)
      ∨ ∃ tcpStream, server.Accepts (server.acceptStream cfg io) tcpStream := by
  unfold Server.acceptStream
  split
  · exact .inl (.same rfl rfl rfl)
  · next tcpStream accepted =>
      refine .inr ⟨tcpStream, ?_⟩
      simp only
      split
      · exact ⟨rfl, .inl⟩
      · split
        · refine ⟨rfl, ?_⟩
          intro other kept held
          rcases held with waits | processes
          · rcases lookup_insert_cases waits with ⟨rfl, rfl⟩ | ⟨-, before⟩
            · exact .inr ⟨connection_nextClientToken (few (by rw [accepted]; rfl)), rfl⟩
            · exact .inl (.inl before)
          · exact .inl (.inr processes)
        · exact ⟨rfl, .inl⟩

/-- A dispatched stream changes maps. -/
theorem dispatchStream_stays (server : Server) {tk : Token} {tcpStream : TcpStream} (io : EventIo)
    (waits : server.readingStreams.lookup tk = some tcpStream)
    : server.Stays (server.dispatchStream tk tcpStream io) := by
  unfold Server.dispatchStream
  simp only
  split
  · split
    · exact .fewer rfl fun held => held.imp lookup_of_erase id
    · refine .fewer rfl fun held => ?_
      rcases held with reading | processes
      · exact .inl (lookup_of_erase reading)
      · rcases lookup_insert_cases processes with ⟨rfl, rfl⟩ | ⟨-, before⟩
        · exact .inl waits
        · exact .inr before
  · exact .fewer rfl fun held => held.imp lookup_of_erase id

/-- Every step in range accepts at most one client and mixes up none. Witness: one case for
each branch of the loop.
-/
theorem step_stays (taken : server.step cfg bincode input = some after)
    (few : server.FewAccepts input) (kept : server.KeptInRange input)
    : server.Stays after ∨ ∃ tcpStream, server.Accepts after tcpStream := by
  cases step_takes taken with
  | @top elapsed closeNow registers stands =>
      rcases server.loopTop_cases cfg elapsed closeNow registers with
        starts | ⟨returns, -⟩ | ⟨time, -, -, -, returns⟩
      · obtain ⟨unixStreams, registry, phase, started, -, -⟩ :=
          server.startIteration_frame registers
        rw [starts, started]
        exact .inl (.same rfl rfl rfl)
      · rw [returns]
        exact .inl (.same rfl rfl rfl)
      · rw [returns]
        exact .inl (.fewer rfl fun held => held.imp id nofun)
  | @keepAlive tk tks registers stands =>
      have inRange : tk.toNat % 2 ^ 24 + 2 ^ 7 < 2 ^ 24 := by
        apply kept tk
        rw [stands]
        rfl
      have stays := keepAliveStream_stays { server with phase := .keepAlive tks } registers inRange
      exact .inl ⟨stays.count, stays.holds⟩
  | keptAll =>
      obtain ⟨unixStreams, phase, closing, -, -⟩ := server.takeCloseTks_frame
      rw [closing]
      exact .inl (.same rfl rfl rfl)
  | close =>
      unfold Server.closeStream
      split
      · exact .inl (.same rfl rfl rfl)
      · exact .inl (.fewer rfl fun held => held.imp id lookup_of_erase)
  | closedAll => exact .inl (.same rfl rfl rfl)
  | poll =>
      unfold Server.polled
      split
      · exact .inl (.fewer rfl fun held => held.imp nofun id)
      · exact .inl (.same rfl rfl rfl)
  | @accept ev evs io stands listener =>
      have fewer : io.accept.isSome → server.clientStreamCount + 1 < 2 ^ 40 :=
        fun some_ => Nat.lt_trans (few some_) (by decide)
      have accepts :=
        acceptStream_accepts { server with phase := .events evs } cfg io fewer
      rcases accepts with stays | ⟨tcpStream, accepts⟩
      · exact .inl ⟨stays.count, stays.holds⟩
      · exact .inr ⟨tcpStream, accepts.count, accepts.holds⟩
  | @dispatch ev evs io tcpStream stands other waits =>
      have stays :=
        dispatchStream_stays { server with phase := .events evs } io waits
      exact .inl ⟨stays.count, stays.holds⟩
  | unixStream stands other idle position found taken =>
      rcases unixStreamEvent_frame taken with ⟨panic, rfl⟩ | ⟨next, keeps, rfl⟩
      · exact .inl (.same rfl rfl rfl)
      · exact .inl (.same rfl rfl rfl)
  | unknown => exact .inl (.same rfl rfl rfl)
  | handled => exact .inl (.same rfl rfl rfl)

/-- Every step numbers the clients as before, and at most one more. -/
theorem Numbered.stepped (numbered : server.Numbered asked clients) (tracked : server.Tracked)
    (sends : server.Sends bincode after more)
    (steps : server.Stays after ∨ ∃ tcpStream, server.Accepts after tcpStream)
    : ∃ clients',
        after.Numbered (asked ++ more) clients'
        ∧ server.clientStreamCount ≤ after.clientStreamCount
        ∧ ∀ n ≤ server.clientStreamCount, clients' n = clients n := by
  have open_ {tk : Token} {tcpStream : TcpStream} (holds : server.Holds tk tcpStream)
      : connection tk ≤ server.clientStreamCount :=
    tracked.counted tk (tracked.known tk holds.opened)
  have sent
      : ∀ pair ∈ more, server.Holds pair.1 ⟨pair.2⟩ := by
    cases sends with
    | nothing => exact nofun
    | request waits =>
        intro pair member
        obtain rfl := List.mem_singleton.mp member
        exact .inl waits
  rcases steps with stays | ⟨tcpStream, accepts⟩
  · refine ⟨clients, ⟨?_, ?_, ?_⟩, Nat.le_of_eq stays.count.symm, fun _ _ => rfl⟩
    · intro tk kept held
      obtain ⟨before, same, holds⟩ := stays.holds held
      rw [← same]
      exact numbered.holds holds
    · intro pair member
      rcases List.mem_append.mp member with before | new
      · exact numbered.sent pair before
      · exact numbered.holds (sent pair new)
    · intro pair member
      rw [stays.count]
      rcases List.mem_append.mp member with before | new
      · exact numbered.counted pair before
      · exact open_ (sent pair new)
  · have old (n : Nat) (within : n ≤ server.clientStreamCount)
        : Function.update clients (server.clientStreamCount + 1) tcpStream n = clients n :=
      Function.update_of_ne (by omega) _ _
    refine ⟨Function.update clients (server.clientStreamCount + 1) tcpStream, ⟨?_, ?_, ?_⟩,
      by rw [accepts.count]; omega, old⟩
    · intro tk kept held
      rcases accepts.holds held with holds | ⟨number, rfl⟩
      · rw [old _ (open_ holds)]
        exact numbered.holds holds
      · rw [number]
        exact Function.update_self ..
    · intro pair member
      rcases List.mem_append.mp member with before | new
      · rw [old _ (numbered.counted pair before)]
        exact numbered.sent pair before
      · rw [old _ (open_ (sent pair new))]
        exact numbered.holds (sent pair new)
    · intro pair member
      rw [accepts.count]
      rcases List.mem_append.mp member with before | new
      · exact Nat.le_succ_of_le (numbered.counted pair before)
      · exact Nat.le_succ_of_le (open_ (sent pair new))

/-- The order of what was asked for does not matter. -/
theorem Numbered.perm (numbered : server.Numbered asked clients) (same : more.Perm asked)
    : server.Numbered more clients where
  holds := numbered.holds
  sent pair member := numbered.sent pair (same.mem_iff.mp member)
  counted pair member := numbered.counted pair (same.mem_iff.mp member)

end Server

-----------------------------------------------------------------------------------------
-- Runs of the service
-----------------------------------------------------------------------------------------

namespace Service

variable {cfg : Config} {crates : Crates} {bincode : Bincode} {service after : Service}
  {links : List Link} {clients : Nat → TcpStream}

/-- The server holds the stream under the token, or a worker has received it under it. -/
def Carries (service : Service) (tk : Token) (tcpStream : TcpStream) : Prop :=
  service.server.Holds tk tcpStream
  ∨ ∃ worker ∈ service.workers, (tk, tcpStream.fd) ∈ WorkerLoop.received worker.trace

/-- What a service carries is numbered, and its number was given out. -/
theorem Carries.client (linked : service.Linked bincode links)
    (numbered : service.server.Numbered (links.flatMap (·.requested)) clients)
    (tracked : service.server.Tracked) {tk : Token} {tcpStream : TcpStream}
    (carries : service.Carries tk tcpStream)
    : clients (connection tk) = tcpStream
      ∧ connection tk ≤ service.server.clientStreamCount := by
  rcases carries with holds | ⟨worker, member, received⟩
  · exact ⟨numbered.holds holds, tracked.counted tk (tracked.known tk holds.opened)⟩
  · have part := sublist_flatMap (fun worker => WorkerLoop.received worker.trace) member
    have asked := (received_sublist linked.workers linked.runs).subset (part.subset received)
    exact ⟨numbered.sent _ asked, numbered.counted _ asked⟩

/-- A run numbers the clients as they were numbered before it. Witness: induction on the run;
a step of the server may number one more client, and a step of a worker none.
-/
theorem numbered_run
    (reached
      : Reach (step cfg crates bincode) (InRange cfg crates bincode) (.new cfg) service)
    (linked : service.Linked bincode links)
    (numbered : service.server.Numbered (links.flatMap (·.requested)) clients)
    (run : Reach (step cfg crates bincode) (InRange cfg crates bincode) service after)
    : ∃ links' clients',
        after.Linked bincode links'
        ∧ after.server.Numbered (links'.flatMap (·.requested)) clients'
        ∧ service.server.clientStreamCount ≤ after.server.clientStreamCount
        ∧ ∀ n ≤ service.server.clientStreamCount, clients' n = clients n := by
  induction run with
  | start => exact ⟨links, clients, linked, numbered, Nat.le_refl _, fun _ _ => rfl⟩
  | @next before input after earlier allowed taken ih =>
      obtain ⟨middle, known, linked, numbered, more, same⟩ := ih
      have tracked := Server.tracked_reached (server_inRange (reached.trans earlier))
      cases input with
      | server input =>
          obtain ⟨server, moved, rfl⟩ := Option.map_eq_some_iff.mp taken
          obtain ⟨asked, nexts, sends, stepped, grown⟩ :=
            linked.server_stepped tracked.distinct moved
          have steps := Server.step_stays moved allowed.1 allowed.2
          obtain ⟨wider, numbers, counted, agrees⟩ := numbered.stepped tracked sends steps
          refine ⟨nexts, wider, stepped, numbers.perm grown, Nat.le_trans more counted, ?_⟩
          intro n within
          rw [agrees n (Nat.le_trans within more), same n within]
      | worker n input =>
          obtain ⟨stream, worker, next, found, there, moved, own, rfl⟩ := workerStep_own taken
          obtain ⟨nexts, stepped, grown⟩ :=
            linked.worker_stepped found there own (allowed _ found _ there) moved
          have numbers := numbered.perm grown
          exact ⟨nexts, known, stepped, ⟨numbers.holds, numbers.sent, numbers.counted⟩, more,
            same⟩

/-- Every run numbers its clients. -/
theorem numbered_reach
    (run
      : Reach (step cfg crates bincode) (InRange cfg crates bincode) (.new cfg) service)
    : ∃ links clients,
        service.Linked bincode links
        ∧ service.server.Numbered (links.flatMap (·.requested)) clients := by
  have initial : (Service.new cfg).server.Numbered
      ((List.replicate cfg.numWorkers Link.new).flatMap (·.requested)) fun _ => ⟨0⟩ := by
    have nothing : (List.replicate cfg.numWorkers Link.new).flatMap (·.requested) = [] := by
      refine List.flatMap_eq_nil_iff.mpr fun link member => ?_
      obtain rfl := (List.mem_replicate.mp member).2
      rfl
    rw [nothing]
    exact ⟨fun held => held.elim nofun nofun, nofun, nofun⟩
  obtain ⟨links, clients, linked, numbered, -, -⟩ :=
    numbered_run .start (linked_new cfg bincode) initial run
  exact ⟨links, clients, linked, numbered⟩

/-- Whatever the server or a worker carries under a token, now or later in a run in range, is
the stream of one client for each connection number: no two clients are ever mixed up, in the
server, on the way to a worker or by a worker.
-/
theorem clients_identified (cfg : Config) (crates : Crates) (bincode : Bincode)
    : ∀ service after,
        Reach (step cfg crates bincode) (InRange cfg crates bincode) (.new cfg) service →
        Reach (step cfg crates bincode) (InRange cfg crates bincode) service after →
        ∀ {tk other : Token} {tcpStream later : TcpStream},
          service.Carries tk tcpStream → after.Carries other later →
          connection tk = connection other →
          tcpStream = later := by
  intro service after reached run tk other tcpStream later carries carried same
  obtain ⟨links, clients, linked, numbered⟩ := numbered_reach reached
  obtain ⟨links', clients', linked', numbered', -, agrees⟩ :=
    numbered_run reached linked numbered run
  obtain ⟨first, counted⟩ :=
    carries.client linked numbered (Server.tracked_reached (server_inRange reached))
  obtain ⟨second, -⟩ :=
    carried.client linked' numbered'
      (Server.tracked_reached (server_inRange (reached.trans run)))
  rw [← first, ← second, ← same, agrees _ counted]

/-- The worker answers the client, and its stream is handed back to be kept alive. Another
client has been accepted meanwhile. The first one sends again, and its stream goes to the
worker with its next token.
-/
def handingBack : List ServiceInput :=
  let read : WorkerEventIo := { WorkerEventIo.quiet with read := .ok (headOf "0") }
  let send : WorkerEventIo := { WorkerEventIo.quiet with alive := [[0, 1]] }
  let iteration : List ServiceInput :=
    [.server (.top none false fun _ => true), .server .advance, .server .advance]
  let polls (event : MioEvent) (io : EventIo) : List ServiceInput :=
    [.server (.poll (some [event]) true 0 fun _ => true), .server (.event io),
      .server .advance]
  (WorkerInput.turn 0 [] [⟨16777216, true, false⟩] [read] 1 0 0
      ++ WorkerInput.turn 0 [] [] [send] 0 0 0
      ++ [WorkerInput.codeStart 1 16777216 0, .respond 1 16777216 WorkerLoop.ok200]
      ++ WorkerInput.turn 0 [] [] [WorkerLoop.found 1 1] 2 0 0
      ++ WorkerInput.turn 0 [] [⟨16777216, false, true⟩]
          [{ WorkerEventIo.quiet with write := .ok 73 }] 1 0 0
      ++ WorkerInput.turn 0 [] [⟨0, false, true⟩] [{ WorkerEventIo.quiet with write := .ok 18 }]
          0 0 0).map (.worker 0)
  ++ [.server .advance]
  ++ iteration
  ++ polls ⟨0, true, false⟩ ⟨some ⟨10⟩, true, .ok 0, 0, .ok 0⟩
  ++ iteration
  ++ polls ⟨1, true, false⟩ ⟨none, true, .ok 18, 0, .ok 0⟩
  ++ [.server (.top none false fun _ => true), .server (.keepAlive true), .server .advance,
    .server .advance]
  ++ polls ⟨16777344, true, false⟩ ⟨none, true, .ok 0, 0, .ok 0⟩
  ++ iteration
  ++ polls ⟨1, false, true⟩ ⟨none, true, .ok 0, 1, .ok 13⟩
  ++ (WorkerInput.turn 0 [] [⟨0, true, false⟩]
        [{ WorkerEventIo.quiet with unixRead := .ok 13, ready := 1 }] 0 0 0
      ++ WorkerInput.turn 0 [] [] [.quiet] 1 0 0).map (.worker 0)

/-- The stream that comes back is that of the first client, not the second's. -/
theorem clients_identified_handing
    : ∃ (service after : Service) (tcpStream : TcpStream),
        service.Carries 16777216 tcpStream
        ∧ after.Carries 33554432 ⟨10⟩
        ∧ after.Carries 16777344 ⟨9⟩
        ∧ tcpStream = ⟨9⟩ := by
  have runs
      : ((exec (step manned (.onHead "0") .fixint) (InRange manned (.onHead "0") .fixint)
          (.new manned) handing).bind fun service =>
            (exec (step manned (.onHead "0") .fixint) (InRange manned (.onHead "0") .fixint)
              service handingBack).map fun after =>
                ((service.server.processingStreams.lookup 16777216).isSome,
                  after.server.readingStreams.lookup 33554432,
                  after.workers.map fun worker => WorkerLoop.received worker.trace))
        = some (true, some ⟨10⟩, [[(16777216, 9), (16777344, 9)]]) := by
    decide +kernel
  obtain ⟨service, first, rest⟩ := Option.bind_eq_some_iff.mp runs
  obtain ⟨after, second, out⟩ := Option.map_eq_some_iff.mp rest
  obtain ⟨held, others⟩ := Prod.mk.inj out
  obtain ⟨waits, received⟩ := Prod.mk.inj others
  obtain ⟨tcpStream, processed⟩ := Option.isSome_iff_exists.mp held
  have holds : service.Carries 16777216 tcpStream := .inl (.inr processed)
  have carried : after.Carries 16777344 ⟨9⟩ := by
    obtain ⟨worker, member, same⟩ :=
      List.mem_map.mp (received ▸ List.mem_singleton_self [(16777216, 9), (16777344, 9)])
    exact .inr ⟨worker, member, same ▸ List.mem_cons_of_mem _ (List.mem_singleton_self _)⟩
  have same :=
    clients_identified manned (.onHead "0") .fixint service after (Reach.of_exec _ first)
      (Reach.of_exec _ second) holds carried (by decide +kernel)
  exact ⟨service, after, tcpStream, holds, .inl (.inl waits), carried, same⟩

end Service
end Casket
