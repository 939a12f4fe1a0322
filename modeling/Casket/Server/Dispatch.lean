import Casket.Lib.Maps
import Casket.Server.Lanes
import Casket.Server.Loop

/-! The server and its workers together. Each token the server is processing has one copy,
on one worker's lane; so whatever comes back can be taken out of the server's map.
-/

namespace Casket

open Lib

/-- The server and the message buffer of each worker. The sockets between them are part of
the server's unix streams.
-/
structure Net where
  server : Server
  workers : List WorkerMsgBuffer

/-- A step of the server, or a call by one worker on its message buffer. -/
inductive NetInput where
  | server (input : ServerInput)
  | worker (n : Nat) (op : LinkOp)

-----------------------------------------------------------------------------------------
-- What the environment may do
-----------------------------------------------------------------------------------------

/-- The token under which a step starts to wait for a request on an open stream. -/
def Server.opens (cfg : Config) (server : Server) : ServerInput → Option Token
  | .keepAlive registers =>
      match server.phase with
      | .keepAlive (tk :: _) =>
          if tk ∈ server.processingStreams.keys ∧ !server.runShutdown ∧ registers then
            some (tk + keepAliveCountInc)
          else
            none
      | _ => none
  | .event io =>
      match server.phase with
      | .events (ev :: _) =>
          if ev.token = serverToken
              ∧ io.accept.isSome
              ∧ server.readingStreams.keys.length + server.processingStreams.keys.length
                < cfg.maxConns
              ∧ io.registers then
            some server.nextClientToken
          else
            none
      | _ => none
  | _ => none

/-- No open stream carries the token a step opens a stream with. -/
def Server.FreshToken (cfg : Config) (server : Server) (input : ServerInput) : Prop :=
  ∀ tk ∈ server.opens cfg input,
    tk ∉ server.readingStreams.keys ∧ tk ∉ server.processingStreams.keys

instance (cfg : Config) (server : Server) (input : ServerInput)
    : Decidable (server.FreshToken cfg input) :=
  Option.decidableForallMem (server.opens cfg input)

namespace Net

def new (workers : Nat) : Net where
  server := .new workers
  workers := List.replicate workers .new

/-- One call by worker `n`, on its own end of its own socket. A worker that panics is gone,
so it makes no call.
-/
def workerStep (bincode : Bincode) (net : Net) (n : Nat) (op : LinkOp) : Option Net :=
  match net.server.unixStreams[n]?, net.workers[n]? with
  | some stream, some worker =>
      match (stream.link worker).step bincode op with
      | some link =>
          if op.byWorker && link.panicked.isNone then
            some
              { server :=
                  { net.server with
                    unixStreams :=
                      net.server.unixStreams.set n { stream with stream := link.socket } }
                workers := net.workers.set n link.worker }
          else
            none
      | none => none
  | _, _ => none

def step (cfg : Config) (bincode : Bincode) (net : Net) : NetInput → Option Net
  | .server input =>
      (net.server.step cfg bincode input).map fun server => { net with server }
  | .worker n op => net.workerStep bincode n op

/-- The promises of a run: no two open streams carry one token, and each serialized response
is shorter than 2^32 bytes.
-/
def Promises (cfg : Config) (bincode : Bincode) (net : Net) : NetInput → Prop
  | .server input => net.server.FreshToken cfg input
  | .worker n op =>
      ∀ stream ∈ net.server.unixStreams[n]?,
      ∀ worker ∈ net.workers[n]?,
        (stream.link worker).ShortResponse bincode op

instance (cfg : Config) (bincode : Bincode) (net : Net) (input : NetInput)
    : Decidable (net.Promises cfg bincode input) :=
  match input with
  | .server input => inferInstanceAs (Decidable (net.server.FreshToken cfg input))
  | .worker n op =>
      inferInstanceAs
        (Decidable
          (∀ stream ∈ net.server.unixStreams[n]?, ∀ worker ∈ net.workers[n]?,
            (stream.link worker).ShortResponse bincode op))

end Net

-----------------------------------------------------------------------------------------
-- One copy of each token in process
-----------------------------------------------------------------------------------------

/-- Tokens already taken out of the lanes that the loop still has to look up. -/
def ServerPhase.remaining : ServerPhase → List Token
  | .keepAlive tks | .closing tks => tks
  | _ => []

def ServerPhase.running : ServerPhase → Bool
  | .returned _ | .panicked _ => false
  | _ => true

/-- The tokens in process are the copies on the lanes and those in the loop's hands, and
whatever waits in a `to_send` is a stream in process.
-/
structure Server.Dispatched (bincode : Bincode) (server : Server)
    (workers : List WorkerMsgBuffer) (lanes : List Lane) (remaining : List Token)
    : Prop where
  connected : Connected bincode server.unixStreams workers lanes
  copies : server.processingStreams.keys.Perm (Lane.outstanding lanes ++ remaining)
  apart : ∀ tk ∈ server.readingStreams.keys, tk ∉ server.processingStreams.keys
  waiting
    : ∀ entry ∈ Lane.toSend lanes,
        server.processingStreams.lookup entry.1.token = some ⟨entry.2⟩

/-- The loop is in order while it runs; of the panics, only that of a server without
workers can have ended it.
-/
structure Server.Accounted (bincode : Bincode) (server : Server)
    (workers : List WorkerMsgBuffer)
    : Prop where
  running
    : server.phase.running →
      ∃ lanes, server.Dispatched bincode workers lanes server.phase.remaining
  calm : ∀ panic, server.phase = .panicked panic → panic = .noUnixStream

namespace Server

variable {cfg : Config} {bincode : Bincode} {server : Server}
  {workers : List WorkerMsgBuffer} {lanes : List Lane} {remaining : List Token}

/-- An iteration that goes on. -/
theorem Accounted.goesOn {phase : ServerPhase} (stands : server.phase = phase)
    (runs : phase.running)
    (dispatched : server.Dispatched bincode workers lanes phase.remaining)
    : server.Accounted bincode workers where
  running _ := ⟨lanes, stands ▸ dispatched⟩
  calm panic panicked := by
    rw [← stands, panicked] at runs
    cases runs

/-- The accounts of a loop that stands in a running phase. -/
theorem Accounted.dispatched (accounted : server.Accounted bincode workers)
    {phase : ServerPhase} (stands : server.phase = phase) (runs : phase.running)
    : ∃ lanes, server.Dispatched bincode workers lanes phase.remaining := by
  subst stands
  exact accounted.running runs

/-- The accounts do not look at the phase. -/
theorem Dispatched.rephase (dispatched : server.Dispatched bincode workers lanes remaining)
    (phase : ServerPhase)
    : Dispatched bincode { server with phase } workers lanes remaining :=
  ⟨dispatched.connected, dispatched.copies, dispatched.apart, dispatched.waiting⟩

/-- A loop that has returned. -/
theorem Accounted.ended {result : RuntimeResult} (ended : server.phase = .returned result)
    : server.Accounted bincode workers where
  running runs := by
    rw [ended] at runs
    cases runs
  calm panic panicked := by
    rw [ended] at panicked
    cases panicked

/-- Sockets that have been created represent empty lanes. -/
theorem Dispatched.new (bincode : Bincode) (n : Nat)
    : (Server.new n).Dispatched bincode (List.replicate n .new)
        ((List.range n).map fun k => ⟨.new (UInt64.ofNat (k + 1)) .pair, .new, .empty⟩)
        [] where
  connected := by
    refine ⟨?_, ?_, ?_⟩
    · simp [Server.new, Function.comp_def]
    · simp [Function.comp_def]
    · intro lane among
      obtain ⟨k, -, rfl⟩ := List.mem_map.mp among
      exact ⟨.new bincode, rfl⟩
  copies := by
    have idle : ∀ box : Mailbox, box = .empty → box.outstanding = [] := by
      rintro box rfl
      rfl
    simp [Lane.outstanding, List.flatMap_map, idle, Server.new]
  apart tk reading := by simp [Server.new] at reading
  waiting entry member := by simp [Lane.toSend, Mailbox.empty] at member

namespace Dispatched

/-- What waits in a `to_send` is a copy. -/
theorem copy_of_toSend {entry : Request × RawFd} (member : entry ∈ Lane.toSend lanes)
    : entry.1.token ∈ Lane.outstanding lanes := by
  obtain ⟨lane, among, waits⟩ := List.mem_flatMap.mp member
  refine List.mem_flatMap.mpr ⟨lane, among, List.mem_append_left _ ?_⟩
  exact List.mem_map_of_mem waits

/-- The copies are distinct: the server's map has each token once. -/
theorem distinct (dispatched : server.Dispatched bincode workers lanes remaining)
    : (Lane.outstanding lanes ++ remaining).Nodup :=
  dispatched.copies.nodup_iff.mp server.processingStreams.nodupKeys

/-- The copies on one lane are distinct. -/
theorem lane_distinct (dispatched : server.Dispatched bincode workers lanes remaining)
    {n : Nat} {lane : Lane} (at_ : lanes[n]? = some lane)
    : lane.box.outstanding.Nodup := by
  have all := (List.nodup_append.mp dispatched.distinct).1
  exact (List.nodup_flatMap.mp all).1 lane (List.mem_of_getElem? at_)

/-- Calls on the lanes that take `taken` leave it in the loop's hands. -/
theorem moved (dispatched : server.Dispatched bincode workers lanes remaining)
    {after : Server} {workers' : List WorkerMsgBuffer} {lanes' : List Lane}
    {taken : List Token} (connected : Connected bincode after.unixStreams workers' lanes')
    (moves : Lane.Moves lanes lanes' taken)
    (processing : after.processingStreams = server.processingStreams)
    (reading : after.readingStreams = server.readingStreams)
    : after.Dispatched bincode workers' lanes' (taken ++ remaining) where
  connected := connected
  copies := by
    rw [processing, ← List.append_assoc]
    have inHand := moves.outstanding.symm.trans List.perm_append_comm
    exact dispatched.copies.trans (inHand.append_right remaining)
  apart := by
    rw [processing, reading]
    exact dispatched.apart
  waiting entry member := by
    rw [processing]
    exact dispatched.waiting entry (moves.toSend entry member)

/-- The token in the loop's hands is in process, and taken out of the map it is in neither
map; its copy is gone, so no request that still waits carries it.
-/
theorem release {tk : Token} {tks : List Token}
    (dispatched : server.Dispatched bincode workers lanes (tk :: tks))
    : (∃ tcpStream, server.processingStreams.lookup tk = some tcpStream)
      ∧ Dispatched bincode
          { server with processingStreams := server.processingStreams.erase tk }
          workers lanes tks := by
  have copies : server.processingStreams.keys.Perm (tk :: (Lane.outstanding lanes ++ tks)) :=
    dispatched.copies.trans List.perm_middle
  have there : tk ∈ server.processingStreams.keys :=
    copies.mem_iff.mpr List.mem_cons_self
  refine ⟨?_, ⟨dispatched.connected, ?_, ?_, ?_⟩⟩
  · exact exists_lookup there
  · rw [AList.keys_erase]
    exact List.Perm.cons_inv ((List.perm_cons_erase there).symm.trans copies)
  · intro other reading processing
    rw [AList.keys_erase] at processing
    exact dispatched.apart other reading (List.mem_of_mem_erase processing)
  · intro entry member
    have other : entry.1.token ≠ tk := by
      rintro rfl
      have once := (List.perm_middle.nodup_iff.mp dispatched.distinct).notMem
      exact once (List.mem_append_left _ (copy_of_toSend member))
    rw [AList.lookup_erase_ne other]
    exact dispatched.waiting entry member

/-- A stream that starts to wait under a token not in process. -/
theorem opened (dispatched : server.Dispatched bincode workers lanes remaining)
    {tk : Token} (fresh : tk ∉ server.processingStreams.keys) (tcpStream : TcpStream)
    : Dispatched bincode
        { server with readingStreams := server.readingStreams.insert tk tcpStream }
        workers lanes remaining where
  connected := dispatched.connected
  copies := dispatched.copies
  apart other reading := by
    rw [AList.keys_insert] at reading
    rcases List.mem_cons.mp reading with rfl | before
    · exact fresh
    · exact dispatched.apart other (List.mem_of_mem_erase before)
  waiting := dispatched.waiting

/-- A stream that stops waiting. -/
theorem takenUp (dispatched : server.Dispatched bincode workers lanes remaining)
    (tk : Token)
    : Dispatched bincode
        { server with readingStreams := server.readingStreams.erase tk }
        workers lanes remaining where
  connected := dispatched.connected
  copies := dispatched.copies
  apart other reading := by
    rw [AList.keys_erase] at reading
    exact dispatched.apart other (List.mem_of_mem_erase reading)
  waiting := dispatched.waiting

/-- A request handed to a worker: its one copy waits on that worker's lane, and its stream
in the map.
-/
theorem handedOver (dispatched : server.Dispatched bincode workers lanes []) {tk : Token}
    (fresh : tk ∉ server.processingStreams.keys) (idle : tk ∉ server.readingStreams.keys)
    (tcpStream : TcpStream) {streams : List UnixStream}
    (sent
      : UnixStreams.msgSendTcpStream server.unixStreams tk tcpStream.fd = .ok streams)
    : ∃ lanes',
        Dispatched bincode
          { server with
            unixStreams := streams
            processingStreams := server.processingStreams.insert tk tcpStream }
          workers lanes' [] := by
  unfold UnixStreams.msgSendTcpStream at sent
  split at sent
  · cases sent
  · next stream found =>
      obtain rfl := Except.ok.inj sent
      obtain ⟨lane, at_, rfl, behind, sound⟩ := dispatched.connected.lane_at found
      obtain ⟨after, became, same, kept, copies, queue⟩ :=
        sound.msgSendTcpStream tk tcpStream.fd
      have before := dispatched.copies
      rw [List.append_nil] at before
      refine ⟨lanes.set (UnixStreams.leastLoaded server.unixStreams) after, ?_, ?_, ?_, ?_⟩
      · rw [← became]
        exact dispatched.connected.setStream behind same kept
      · rw [AList.keys_insert, List.erase_of_not_mem fresh, List.append_nil]
        exact (before.cons tk).trans (Lane.dispatched at_ copies).symm
      · intro other reading
        rw [AList.keys_insert, List.erase_of_not_mem fresh, List.mem_cons, not_or]
        refine ⟨?_, dispatched.apart other reading⟩
        rintro rfl
        exact idle reading
      · intro entry member
        have waited
            : entry ∈ Lane.toSend lanes →
              (server.processingStreams.insert tk tcpStream).lookup entry.1.token
              = some ⟨entry.2⟩ := by
          intro before'
          have other : entry.1.token ≠ tk := by
            rintro rfl
            exact fresh (before.mem_iff.mpr (copy_of_toSend before'))
          rw [AList.lookup_insert_ne other]
          exact dispatched.waiting entry before'
        rcases Lane.toSend_set member with here | there
        · rw [queue] at here
          rcases List.mem_append.mp here with old | new
          · exact waited (List.mem_flatMap.mpr ⟨lane, List.mem_of_getElem? at_, old⟩)
          · obtain rfl := List.mem_singleton.mp new
            exact AList.lookup_insert _
        · exact waited there

end Dispatched

-----------------------------------------------------------------------------------------
-- Every step of the server keeps its accounts
-----------------------------------------------------------------------------------------

/-- The start of an iteration takes the kept tokens into the loop's hands. -/
theorem Dispatched.startIteration (dispatched : server.Dispatched bincode workers lanes [])
    (registers : Token → Bool)
    : (server.startIteration registers).Accounted bincode workers := by
  obtain ⟨between, registered, still⟩ :=
    dispatched.connected.reregister registers server.registry
  obtain ⟨tks, streams, lanes', taken, connected, moves⟩ :=
    registered.drainAll (Lane.pops_nextStreamTk bincode) (·.msgBuffer.streamTks.length)
  simp only [Server.startIteration, UnixStreams.nextStreamTks, taken]
  refine .goesOn rfl rfl (?inHand : Dispatched bincode _ workers lanes' tks)
  rw [← List.append_nil tks]
  exact dispatched.moved connected (still.trans moves) rfl rfl

/-- The exit tests return, or the iteration starts. -/
theorem Dispatched.loopTop (dispatched : server.Dispatched bincode workers lanes [])
    (elapsed : Option Duration) (closeNow : Bool) (registers : Token → Bool)
    : (server.loopTop cfg elapsed closeNow registers).Accounted bincode workers := by
  have starts := dispatched.startIteration registers
  unfold Server.loopTop
  repeat' split
  all_goals first | exact starts | exact .ended rfl

/-- A kept stream is in process; it waits again under a fresh token, or is given up. -/
theorem Dispatched.keepAliveStream {tk : Token} {tks : List Token}
    (dispatched : server.Dispatched bincode workers lanes (tk :: tks))
    (stands : server.phase = .keepAlive tks) (registers : Bool)
    (fresh
      : tk ∈ server.processingStreams.keys → server.runShutdown = false → registers →
        tk + keepAliveCountInc ∉ server.processingStreams.keys)
    : (server.keepAliveStream tk registers).Accounted bincode workers := by
  obtain ⟨⟨tcpStream, found⟩, released⟩ := dispatched.release
  have there : tk ∈ server.processingStreams.keys := mem_keys_of_lookup found
  simp only [Server.keepAliveStream, found]
  split
  · exact .goesOn stands rfl
      ⟨released.connected, released.copies, released.apart, released.waiting⟩
  · next up =>
      split
      · next registered =>
          have unused
              : tk + keepAliveCountInc ∉ (server.processingStreams.erase tk).keys := by
            rw [AList.keys_erase]
            intro used
            exact fresh there (Bool.eq_false_of_not_eq_true up) registered
              (List.mem_of_mem_erase used)
          have opened := released.opened unused tcpStream
          exact .goesOn stands rfl
            ⟨opened.connected, opened.copies, opened.apart, opened.waiting⟩
      · exact .goesOn stands rfl
          ⟨released.connected, released.copies, released.apart, released.waiting⟩

/-- The tokens to be closed are taken into the loop's hands. -/
theorem Dispatched.takeCloseTks (dispatched : server.Dispatched bincode workers lanes [])
    : server.takeCloseTks.Accounted bincode workers := by
  obtain ⟨tks, streams, lanes', taken, connected, moves⟩ :=
    dispatched.connected.drainAll (Lane.pops_nextStreamCloseTk bincode)
      (·.msgBuffer.streamCloseTks.length)
  simp only [Server.takeCloseTks, UnixStreams.nextStreamCloseTks, taken]
  refine .goesOn rfl rfl (?inHand : Dispatched bincode _ workers lanes' tks)
  rw [← List.append_nil tks]
  exact dispatched.moved connected moves rfl rfl

/-- A stream to be closed is in process, and is shut down. -/
theorem Dispatched.closeStream {tk : Token} {tks : List Token}
    (dispatched : server.Dispatched bincode workers lanes (tk :: tks))
    (stands : server.phase = .closing tks)
    : (server.closeStream tk).Accounted bincode workers := by
  obtain ⟨⟨tcpStream, found⟩, released⟩ := dispatched.release
  simp only [Server.closeStream, found]
  exact .goesOn stands rfl
    ⟨released.connected, released.copies, released.apart, released.waiting⟩

/-- A shutdown drops the waiting streams only. -/
theorem Dispatched.polled (dispatched : server.Dispatched bincode workers lanes [])
    (events : Option (List MioEvent)) (running : Bool) (now : SystemTime)
    (deregisters : Token → Bool)
    : (server.polled events running now deregisters).Accounted bincode workers := by
  unfold Server.polled
  split
  · refine .goesOn rfl rfl ⟨dispatched.connected, dispatched.copies, ?_, dispatched.waiting⟩
    intro tk reading
    cases reading
  · exact .goesOn rfl rfl
      ⟨dispatched.connected, dispatched.copies, dispatched.apart, dispatched.waiting⟩

/-- An accepted stream waits under a fresh token, or is dropped. -/
theorem Dispatched.acceptStream (dispatched : server.Dispatched bincode workers lanes [])
    {evs : List MioEvent} (stands : server.phase = .events evs) (io : EventIo)
    (fresh
      : io.accept.isSome →
        server.readingStreams.keys.length + server.processingStreams.keys.length
          < cfg.maxConns →
        io.registers → server.nextClientToken ∉ server.processingStreams.keys)
    : (server.acceptStream cfg io).Accounted bincode workers := by
  unfold Server.acceptStream
  split
  · exact .goesOn stands rfl dispatched
  · next tcpStream accepted =>
      simp only
      split
      · exact .goesOn stands rfl
          ⟨dispatched.connected, dispatched.copies, dispatched.apart, dispatched.waiting⟩
      · next below =>
          split
          · next registered =>
              have unused :=
                fresh (by rw [accepted]; rfl) (Nat.lt_of_not_le below) registered
              have opened := dispatched.opened unused tcpStream
              exact .goesOn stands rfl
                ⟨opened.connected, opened.copies, opened.apart, opened.waiting⟩
          · exact .goesOn stands rfl
              ⟨dispatched.connected, dispatched.copies, dispatched.apart,
                dispatched.waiting⟩

/-- A waiting stream is handed to a worker, or dropped. -/
theorem Dispatched.dispatchStream (dispatched : server.Dispatched bincode workers lanes [])
    {evs : List MioEvent} (stands : server.phase = .events evs) {tk : Token}
    {tcpStream : TcpStream} (found : server.readingStreams.lookup tk = some tcpStream)
    (io : EventIo)
    : (server.dispatchStream tk tcpStream io).Accounted bincode workers := by
  have reading : tk ∈ server.readingStreams.keys := mem_keys_of_lookup found
  have taken := dispatched.takenUp tk
  unfold Server.dispatchStream
  simp only
  split
  · split
    · next panic failed =>
        refine ⟨fun runs => (nomatch runs), ?_⟩
        intro other panicked
        obtain rfl := ServerPhase.panicked.inj panicked
        unfold UnixStreams.msgSendTcpStream at failed
        split at failed
        · exact (Except.error.inj failed).symm
        · cases failed
    · next streams sent =>
        have idle : tk ∉ (server.readingStreams.erase tk).keys := by
          rw [AList.keys_erase]
          exact server.readingStreams.nodupKeys.not_mem_erase
        obtain ⟨lanes', handed⟩ :=
          taken.handedOver (dispatched.apart tk reading) idle tcpStream sent
        exact .goesOn stands rfl
          ⟨handed.connected, handed.copies, handed.apart, handed.waiting⟩
  · exact .goesOn stands rfl ⟨taken.connected, taken.copies, taken.apart, taken.waiting⟩

/-- An event of a worker socket moves copies on its lane. -/
theorem Dispatched.unixStreamEvent
    (dispatched : server.Dispatched bincode workers lanes []) {evs : List MioEvent}
    (stands : server.phase = .events evs) {n : Nat} {stream : UnixStream}
    (found : server.unixStreams[n]? = some stream) {ev : MioEvent} {io : EventIo}
    {after : Server} (taken : server.unixStreamEvent bincode n stream ev io = some after)
    : after.Accounted bincode workers := by
  obtain ⟨lane, at_, rfl, behind, sound⟩ := dispatched.connected.lane_at found
  obtain ⟨result, read, rfl⟩ := Option.map_eq_some_iff.mp taken
  have readable
      : ∃ between : Lane,
          result = .ok between.stream
          ∧ between.worker = lane.worker
          ∧ between.Sound bincode
          ∧ Mailbox.Moves lane.box between.box [] := by
    split at read
    · exact sound.readStream read
    · exact ⟨lane, (Option.some.inj read).symm, rfl, sound, .refl _⟩
  obtain ⟨between, rfl, same, held, moves⟩ := readable
  have writable
      : ∃ last : Lane,
          last.stream
            = (if ev.writable then
                between.stream.writeStream bincode io.accepted io.write
              else
                between.stream)
          ∧ last.worker = between.worker
          ∧ last.Sound bincode
          ∧ Mailbox.Moves between.box last.box [] := by
    split
    · exact held.writeStream io.accepted io.write
    · exact ⟨between, rfl, rfl, held, .refl _⟩
  obtain ⟨last, became, worker, kept, more⟩ := writable
  simp only [← became]
  refine .goesOn stands rfl (dispatched.moved ?_ (Lane.Moves.set at_ (moves.trans more)) rfl rfl)
  exact dispatched.connected.setStream behind (worker.trans same) kept

/-- One polled event. An unknown token ends the loop. -/
theorem Dispatched.handleEvent (dispatched : server.Dispatched bincode workers lanes [])
    {evs : List MioEvent} (stands : server.phase = .events evs) {ev : MioEvent}
    {io : EventIo}
    (fresh
      : ev.token = serverToken → io.accept.isSome →
        server.readingStreams.keys.length + server.processingStreams.keys.length
          < cfg.maxConns →
        io.registers → server.nextClientToken ∉ server.processingStreams.keys)
    {after : Server} (taken : server.handleEvent cfg bincode ev io = some after)
    : after.Accounted bincode workers := by
  unfold Server.handleEvent at taken
  split at taken
  · next listener =>
      obtain rfl := Option.some.inj taken
      exact dispatched.acceptStream stands io (fresh listener)
  · split at taken
    · next tcpStream found =>
        obtain rfl := Option.some.inj taken
        exact dispatched.dispatchStream stands found io
    · split at taken
      · split at taken
        · next stream found => exact dispatched.unixStreamEvent stands found taken
        · cases taken
      · obtain rfl := Option.some.inj taken
        exact .ended rfl

/-- Every step of the server keeps its accounts. Witness: one case for each phase. -/
theorem Accounted.stepped (accounted : server.Accounted bincode workers)
    {input : ServerInput} (fresh : server.FreshToken cfg input) {after : Server}
    (taken : server.step cfg bincode input = some after)
    : after.Accounted bincode workers := by
  unfold Server.step at taken
  split at taken
  · next elapsed closeNow registers stands =>
      obtain rfl := Option.some.inj taken
      obtain ⟨lanes, dispatched⟩ := accounted.dispatched stands rfl
      exact dispatched.loopTop elapsed closeNow registers
  · next tk tks registers stands =>
      obtain rfl := Option.some.inj taken
      obtain ⟨lanes, dispatched⟩ := accounted.dispatched stands rfl
      refine (dispatched.rephase (.keepAlive tks)).keepAliveStream rfl registers ?_
      intro there up registered
      refine (fresh (tk + keepAliveCountInc) ?_).2
      have opening
          : server.opens cfg (.keepAlive registers) = some (tk + keepAliveCountInc) := by
        simp only [opens, stands]
        exact if_pos ⟨there, by rw [Bool.not_eq_true']; exact up, registered⟩
      exact opening
  · next stands =>
      obtain rfl := Option.some.inj taken
      obtain ⟨lanes, dispatched⟩ := accounted.dispatched stands rfl
      exact dispatched.takeCloseTks
  · next tk tks stands =>
      obtain rfl := Option.some.inj taken
      obtain ⟨lanes, dispatched⟩ := accounted.dispatched stands rfl
      exact (dispatched.rephase (.closing tks)).closeStream rfl
  · next stands =>
      obtain rfl := Option.some.inj taken
      obtain ⟨lanes, dispatched⟩ := accounted.dispatched stands rfl
      exact .goesOn rfl rfl (dispatched.rephase .polling)
  · next events running now deregisters stands =>
      obtain rfl := Option.some.inj taken
      obtain ⟨lanes, dispatched⟩ := accounted.dispatched stands rfl
      exact dispatched.polled events running now deregisters
  · next ev evs io stands =>
      obtain ⟨lanes, dispatched⟩ := accounted.dispatched stands rfl
      refine (dispatched.rephase (.events evs)).handleEvent rfl ?_ taken
      intro listener accepted below registered
      refine (fresh server.nextClientToken ?_).2
      have opening : server.opens cfg (.event io) = some server.nextClientToken := by
        simp only [opens, stands]
        exact if_pos ⟨listener, accepted, below, registered⟩
      exact opening
  · next stands =>
      obtain rfl := Option.some.inj taken
      obtain ⟨lanes, dispatched⟩ := accounted.dispatched stands rfl
      exact .goesOn rfl rfl (dispatched.rephase .top)
  · cases taken

end Server

-----------------------------------------------------------------------------------------
-- Every step of the server or of a worker keeps the server's accounts
-----------------------------------------------------------------------------------------

namespace Net

variable {cfg : Config} {bincode : Bincode} {net after : Net}

/-- A worker's call is made at both ends of its own socket, and does not panic. -/
theorem workerStep_inv {n : Nat} {op : LinkOp} (taken : net.workerStep bincode n op = some after)
    : ∃ stream worker link,
        net.server.unixStreams[n]? = some stream
        ∧ net.workers[n]? = some worker
        ∧ (stream.link worker).step bincode op = some link
        ∧ op.byWorker = true
        ∧ link.panicked = none
        ∧ after
          = { server :=
                { net.server with
                  unixStreams :=
                    net.server.unixStreams.set n { stream with stream := link.socket } }
              workers := net.workers.set n link.worker } := by
  unfold workerStep at taken
  split at taken
  · next stream worker found behind =>
      split at taken
      · next link called =>
          split at taken
          · next permitted =>
              obtain ⟨side, calm⟩ := Bool.and_eq_true_iff.mp permitted
              exact ⟨stream, worker, link, found, behind, called, side,
                Option.isNone_iff_eq_none.mp calm, (Option.some.inj taken).symm⟩
          · cases taken
      · cases taken
  · cases taken

/-- A worker's call moves copies on its own lane. -/
theorem workerStep_accounted (accounted : net.server.Accounted bincode net.workers)
    {n : Nat} {op : LinkOp} (promised : net.Promises cfg bincode (.worker n op))
    (taken : net.workerStep bincode n op = some after)
    : after.server.Accounted bincode after.workers := by
  obtain ⟨stream, worker, link, found, behind, called, side, calm, rfl⟩ := workerStep_inv taken
  refine ⟨?_, accounted.calm⟩
  intro runs
  obtain ⟨lanes, dispatched⟩ := accounted.running runs
  obtain ⟨lane, at_, rfl, there, sound⟩ := dispatched.connected.lane_at found
  obtain rfl := Option.some.inj (there.symm.trans behind)
  obtain ⟨last, became, same, kept, moves⟩ :=
    sound.workerCalled (dispatched.lane_distinct at_) side (promised _ found _ behind) called calm
  refine ⟨lanes.set n last, dispatched.moved ?_ (.set at_ moves) rfl rfl⟩
  rw [← became, ← same]
  exact dispatched.connected.set n kept

/-- Every state a run reaches keeps the server's accounts. -/
theorem accounted_reached {n : Nat}
    (run : Reach (Net.step cfg bincode) (Net.Promises cfg bincode) (Net.new n) net)
    : net.server.Accounted bincode net.workers := by
  refine run.invariant (fun net => net.server.Accounted bincode net.workers) ?_ ?_
  · exact .goesOn rfl rfl (.new bincode n)
  · intro before input after accounted promised taken
    cases input with
    | server input =>
        obtain ⟨server, stepped, rfl⟩ := Option.map_eq_some_iff.mp taken
        exact accounted.stepped promised stepped
    | worker n op => exact workerStep_accounted accounted promised taken

end Net

-----------------------------------------------------------------------------------------
-- The dispatch protocol
-----------------------------------------------------------------------------------------

/-- The counters of sound lanes add up to the number of copies. -/
theorem Connected.sum_numReqs {bincode : Bincode} {streams : List UnixStream}
    {workers : List WorkerMsgBuffer} {lanes : List Lane}
    (connected : Connected bincode streams workers lanes)
    : (streams.map (·.numReqs)).sum = (Lane.outstanding lanes).length := by
  rw [← connected.streams, List.map_map, Lane.outstanding, List.length_flatMap]
  congr 1
  exact List.map_congr_left fun lane among => (connected.sound lane among).counted

/-- Lane `n` holds one copy of the token, and no other lane holds any. -/
structure Lane.Owns (lanes : List Lane) (tk : Token) (n : Nat) : Prop where
  once : ∃ lane : Lane, lanes[n]? = some lane ∧ lane.box.outstanding.count tk = 1
  alone
    : ∀ (m : Nat) (other : Lane),
        lanes[m]? = some other → tk ∈ other.box.outstanding → m = n

/-- A token with one copy has it on exactly one lane. Witness: induction on the lanes. -/
theorem Lane.exists_owner {lanes : List Lane} {tk : Token}
    (once : (Lane.outstanding lanes).count tk = 1)
    : ∃ n, Lane.Owns lanes tk n := by
  induction lanes with
  | nil => cases once
  | cons first rest ih =>
      have split : first.box.outstanding.count tk + (outstanding rest).count tk = 1 := by
        rw [← List.count_append]
        exact once
      rcases Nat.eq_zero_or_pos (first.box.outstanding.count tk) with none | some
      · rw [none, Nat.zero_add] at split
        obtain ⟨n, owns⟩ := ih split
        refine ⟨n + 1, owns.once, ?_⟩
        intro m other found member
        cases m with
        | zero =>
            obtain rfl := Option.some.inj found
            exact absurd member (List.count_eq_zero.mp none)
        | succ m => rw [owns.alone m other found member]
      · have single : first.box.outstanding.count tk = 1 := by
          omega
        have nowhere : tk ∉ outstanding rest := by
          apply List.count_eq_zero.mp
          omega
        refine ⟨0, ⟨first, rfl, single⟩, ?_⟩
        intro m other found member
        cases m with
        | zero => rfl
        | succ m =>
            have among : other ∈ rest := List.mem_of_getElem? found
            exact (nowhere (List.mem_flatMap.mpr ⟨other, among, member⟩)).elim

/-- At every loop top the request counters add up to the streams in process, and each of
these has one copy, on one worker's lane, where the lanes are what the buffers and sockets
hold. Whatever waits for a socket is the descriptor of a stream in process, and neither the
lookups nor the counters can fail.
-/
theorem dispatch_exact (cfg : Config) (bincode : Bincode) (workers : Nat) {net : Net}
    (run : Reach (Net.step cfg bincode) (Net.Promises cfg bincode) (Net.new workers) net)
    : (net.server.phase = .top →
        (net.server.unixStreams.map (·.numReqs)).sum
            = net.server.processingStreams.keys.length
        ∧ ∃ lanes,
            Connected bincode net.server.unixStreams net.workers lanes
            ∧ (∀ tk ∉ net.server.processingStreams.keys, tk ∉ Lane.outstanding lanes)
            ∧ ∀ tk ∈ net.server.processingStreams.keys, ∃ n, Lane.Owns lanes tk n)
      ∧ (net.server.phase.running →
          ∀ stream ∈ net.server.unixStreams,
          ∀ entry ∈ stream.msgBuffer.toSend,
            net.server.processingStreams.lookup entry.1.token = some ⟨entry.2⟩)
      ∧ net.server.phase ≠ .panicked .processingStream
      ∧ net.server.phase ≠ .panicked .numReqsUnderflow := by
  have accounted := Net.accounted_reached run
  refine ⟨?_, ?_, ?_, ?_⟩
  · intro top
    obtain ⟨lanes, dispatched⟩ := accounted.dispatched top rfl
    have copies : net.server.processingStreams.keys.Perm (Lane.outstanding lanes) := by
      simpa only [ServerPhase.remaining, List.append_nil] using dispatched.copies
    refine ⟨?_, lanes, dispatched.connected, ?_, ?_⟩
    · rw [dispatched.connected.sum_numReqs, copies.length_eq]
    · intro tk absent copy
      exact absent (copies.mem_iff.mpr copy)
    · intro tk processing
      apply Lane.exists_owner
      rw [← copies.count_eq]
      exact List.count_eq_one_of_mem net.server.processingStreams.nodupKeys processing
  · intro runs stream among entry member
    obtain ⟨lanes, dispatched⟩ := accounted.running runs
    rw [← dispatched.connected.streams] at among
    obtain ⟨lane, there, rfl⟩ := List.mem_map.mp among
    apply dispatched.waiting entry
    rw [(dispatched.connected.sound lane there).represents.toSend] at member
    exact List.mem_flatMap.mpr ⟨lane, there, member⟩
  · intro panicked
    cases accounted.calm _ panicked
  · intro panicked
    cases accounted.calm _ panicked

/-- Two workers and three streams: one kept alive, one closed, one still with its worker. -/
theorem dispatch_exact_kept
    : ∃ net : Net,
        net.server.processingStreams.keys = [33554432]
        ∧ net.server.readingStreams.keys = [16777344]
        ∧ (net.server.unixStreams.map (·.numReqs)).sum
          = net.server.processingStreams.keys.length := by
  let cfg := Config.default "casket"
  let accepts (fd : RawFd) : EventIo := ⟨some ⟨fd⟩, true, .ok 0, 0, .ok 0⟩
  let moves (read accepted write : Nat) : EventIo :=
    ⟨none, true, .ok read, accepted, .ok write⟩
  let iteration (events : List MioEvent) (ios : List EventIo) : List NetInput :=
    [.server (.top none false fun _ => true), .server .advance, .server .advance,
      .server (.poll (some events) true 0 fun _ => true)]
    ++ ios.map (fun io => .server (.event io)) ++ [.server .advance]
  let calls : List NetInput :=
    iteration [⟨0, true, false⟩, ⟨0, true, false⟩, ⟨0, true, false⟩]
      [accepts 7, accepts 8, accepts 9]
    ++ iteration
      [⟨16777216, true, false⟩, ⟨33554432, true, false⟩, ⟨50331648, true, false⟩]
      [moves 0 0 0, moves 0 0 0, moves 0 0 0]
    ++ iteration [⟨1, false, true⟩, ⟨2, false, true⟩] [moves 0 2 26, moves 0 1 13]
    ++ [.worker 0 (.workerRead 2 (.ok 26)), .worker 0 .nextStreamFd, .worker 0 .nextStreamFd,
      .worker 0 (.respStreamDoneOk 16777216 7 true), .worker 0 (.respBadClient 50331648),
      .worker 0 (.workerWrite (.ok 71))]
    ++ iteration [⟨1, true, false⟩] [moves 71 0 0]
    ++ [.server (.top none false fun _ => true), .server (.keepAlive true),
      .server .advance, .server .close, .server .advance,
      .server (.poll (some []) true 0 fun _ => true), .server .advance]
  have runs
      : (exec (Net.step cfg .fixint) (Net.Promises cfg .fixint) (.new 2) calls).map
          (fun net =>
            (net.server.phase, net.server.processingStreams.keys,
              net.server.readingStreams.keys))
        = some (.top, [33554432], [16777344]) := by
    decide +kernel
  obtain ⟨net, done, out⟩ := Option.map_eq_some_iff.mp runs
  obtain ⟨top, rest⟩ := Prod.mk.inj out
  obtain ⟨processing, reading⟩ := Prod.mk.inj rest
  have exact_ := dispatch_exact cfg .fixint 2 (Reach.of_exec calls done)
  exact ⟨net, processing, reading, (exact_.1 top).1⟩

end Casket
