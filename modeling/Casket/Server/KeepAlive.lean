import Casket.Server.Tokens

/-! A connection kept alive. One round of the server and its worker takes a waiting stream
through its request and back to waiting, under the next token; nothing in the code bounds
the number of rounds.
-/

namespace Casket

open Lib

-----------------------------------------------------------------------------------------
-- A drained queue is empty
-----------------------------------------------------------------------------------------

/-- Draining returns every kept token in order. Witness: induction on the queue. -/
theorem UnixStream.drain_nextStreamTk (self : UnixStream)
    (counted : self.msgBuffer.streamTks.length ≤ self.numReqs)
    : self.drain nextStreamTk self.msgBuffer.streamTks.length
      = .ok
          (self.msgBuffer.streamTks.map Prod.fst,
            { self with
              msgBuffer := { self.msgBuffer with streamTks := [] }
              numReqs := self.numReqs - self.msgBuffer.streamTks.length }) := by
  obtain ⟨token, stream, ⟨readBuffer, readBufLen, queue, closing, toSend, writeBuffer⟩,
    interest, numReqs⟩ := self
  simp only at counted ⊢
  induction queue generalizing numReqs with
  | nil => rfl
  | cons entry rest ih =>
      obtain ⟨tk, fd⟩ := entry
      rw [List.length_cons] at counted
      have positive : numReqs ≠ 0 := by
        omega
      have popped := ih (numReqs - 1) (by omega)
      simp only [List.length_cons, drain, nextStreamTk, nextToken,
        ServerMsgBuffer.nextStreamTk, positive, if_false] at popped ⊢
      rw [popped]
      simp only [List.map_cons, Nat.sub_sub, Nat.add_comm 1]

/-- Draining returns every token to be closed in order. Witness: induction on the queue. -/
theorem UnixStream.drain_nextStreamCloseTk (self : UnixStream)
    (counted : self.msgBuffer.streamCloseTks.length ≤ self.numReqs)
    : self.drain nextStreamCloseTk self.msgBuffer.streamCloseTks.length
      = .ok
          (self.msgBuffer.streamCloseTks.map Prod.fst,
            { self with
              msgBuffer := { self.msgBuffer with streamCloseTks := [] }
              numReqs := self.numReqs - self.msgBuffer.streamCloseTks.length }) := by
  obtain ⟨token, stream, ⟨readBuffer, readBufLen, kept, queue, toSend, writeBuffer⟩,
    interest, numReqs⟩ := self
  simp only at counted ⊢
  induction queue generalizing numReqs with
  | nil => rfl
  | cons entry rest ih =>
      obtain ⟨tk, fd⟩ := entry
      rw [List.length_cons] at counted
      have positive : numReqs ≠ 0 := by
        omega
      have popped := ih (numReqs - 1) (by omega)
      simp only [List.length_cons, drain, nextStreamCloseTk, nextToken,
        ServerMsgBuffer.nextStreamCloseTk, positive, if_false] at popped ⊢
      rw [popped]
      simp only [List.map_cons, Nat.sub_sub, Nat.add_comm 1]

/-- A map that had one entry is empty without it. -/
theorem erase_insert_empty {α : Type} (tk : Token) (value : α)
    : ((∅ : TokenMap α).insert tk value).erase tk = ∅ := by
  have none : (((∅ : TokenMap α).insert tk value).erase tk).keys = [] := by
    rw [AList.keys_erase, AList.insert_empty, AList.keys_singleton, List.erase_cons_head]
  exact AList.ext (List.map_eq_nil_iff.mp none)

/-- An event that accepts nobody accepts few. -/
theorem fewAccepts_event {server : Server} {io : EventIo} (nobody : io.accept = none)
    : server.FewAccepts (.event io) := by
  intro accepted
  rw [nobody] at accepted
  cases accepted

-----------------------------------------------------------------------------------------
-- A server with one worker, step by step
-----------------------------------------------------------------------------------------

/-- The number of accepted connections stays in bounds; the workers are free. -/
def Net.FewAccepts (net : Net) : NetInput → Prop
  | .server input => net.server.FewAccepts input
  | .worker _ _ => True

/-- A step of the server is a run of the net. -/
theorem Net.serverRun {cfg : Config} {bincode : Bincode} {net : Net} {input : ServerInput}
    {server : Server} (taken : net.server.step cfg bincode input = some server)
    (few : net.server.FewAccepts input)
    : Reach (Net.step cfg bincode) Net.FewAccepts net { net with server } := by
  have allowed : net.FewAccepts (.server input) := few
  refine Reach.start.next allowed ?_
  rw [Net.step, taken, Option.map_some]

/-- A call of the only worker is a run of the net. -/
theorem Net.workerRun {cfg : Config} {bincode : Bincode} {net : Net} {stream : UnixStream}
    {worker : WorkerMsgBuffer} (streams : net.server.unixStreams = [stream])
    (workers : net.workers = [worker]) {op : LinkOp} (side : op.byWorker) {link : Link}
    (called : (stream.link worker).step bincode op = some link) (calm : link.panicked = none)
    : Reach (Net.step cfg bincode) Net.FewAccepts net
        { server :=
            { net.server with unixStreams := [{ stream with stream := link.socket }] }
          workers := [link.worker] } := by
  have allowed : net.FewAccepts (.worker 0 op) := trivial
  refine Reach.start.next allowed ?_
  simp only [Net.step, workerStep, streams, workers, List.getElem?_cons_zero, called, side,
    calm, Option.isNone_none, Bool.and_self, if_true, List.set_cons_zero]

/-- The streams the server holds, and the tokens it has given out. -/
structure Clients where
  reading : TokenMap TcpStream
  processing : TokenMap TcpStream
  assigned : List Token
  accepted : Nat

/-- The loop stands in a phase, with one worker on one lane, nothing left to write, and
these streams.
-/
structure Net.Standing (bincode : Bincode) (net : Net) (phase : ServerPhase)
    (box : Mailbox) (clients : Clients)
    : Prop where
  phase : net.server.phase = phase
  up : net.server.runShutdown = false
  calm : net.server.ctrlcInstant = none
  reading : net.server.readingStreams = clients.reading
  processing : net.server.processingStreams = clients.processing
  assigned : net.server.assigned = clients.assigned
  accepted : net.server.clientStreamCount = clients.accepted
  lane
    : ∃ stream worker,
        net.server.unixStreams = [stream]
        ∧ net.workers = [worker]
        ∧ stream.token = 1
        ∧ stream.msgBuffer.writeBuffer = []
        ∧ worker.writeBuffer = []
        ∧ Lane.Sound bincode ⟨stream, worker, box⟩

/-- The token of a connection's request number `n`, the first one being 0. -/
def nthToken (tk : Token) (n : Nat) : Token := tk + UInt64.ofNat (2 ^ 7 * n)

/-- Some run leads to a loop that stands like this. -/
def Net.Leads (cfg : Config) (bincode : Bincode) (net : Net) (phase : ServerPhase)
    (box : Mailbox) (clients : Clients)
    : Prop :=
  ∃ after,
    Reach (Net.step cfg bincode) Net.FewAccepts net after
    ∧ after.Standing bincode phase box clients

/-- A run is followed by one from wherever it leads. -/
theorem Net.Leads.followed {cfg : Config} {bincode : Bincode} {net : Net}
    {phase phase' : ServerPhase} {box box' : Mailbox} {clients clients' : Clients}
    (leads : net.Leads cfg bincode phase box clients)
    (onward
      : ∀ {middle : Net}, middle.Standing bincode phase box clients →
          middle.Leads cfg bincode phase' box' clients')
    : net.Leads cfg bincode phase' box' clients' := by
  obtain ⟨middle, first, standing⟩ := leads
  obtain ⟨after, second, standing⟩ := onward standing
  exact ⟨after, first.trans second, standing⟩

namespace Net.Standing

variable (cfg : Config) {bincode : Bincode} {net : Net} {box : Mailbox}
  {clients : Clients}

/-- The start of an iteration hands the kept tokens to the loop. -/
theorem top (standing : net.Standing bincode .top box clients)
    : net.Leads cfg bincode (.keepAlive (box.streamTks.map Prod.fst))
        { box with streamTks := [] } clients := by
  obtain ⟨stream, worker, streams, workers, token, flushed, quiet, sound⟩ := standing.lane
  have queue := sound.represents.streamTks
  simp only at queue
  obtain ⟨interest, same⟩ := stream.reregister_interest true net.server.registry
  have counted : stream.msgBuffer.streamTks.length ≤ stream.numReqs := by
    have counted := sound.counted
    simp only [Mailbox.outstanding, ← queue, List.length_append, List.length_map] at counted
    omega
  have drained := UnixStream.drain_nextStreamTk { stream with interest } counted
  simp only [queue] at drained
  have started
      : net.server.loopTop cfg none false (fun _ => true)
        = { net.server with
            unixStreams :=
              [{ stream with
                  interest
                  msgBuffer := { stream.msgBuffer with streamTks := [] }
                  numReqs := stream.numReqs - stream.msgBuffer.streamTks.length }]
            registry :=
              (UnixStreams.reregister (fun _ => true) [stream] net.server.registry).2
            phase := .keepAlive (box.streamTks.map Prod.fst) } := by
    simp only [Server.loopTop, standing.up, standing.calm, Server.startIteration, streams,
      UnixStreams.reregister, UnixStreams.nextStreamTks, UnixStreams.drainAll, same, drained,
      Bool.false_and, Bool.false_eq_true, if_false, List.append_nil, queue]
  have taken
      : net.server.step cfg bincode (.top none false fun _ => true)
        = some (net.server.loopTop cfg none false fun _ => true) := by
    simp only [Server.step, standing.phase]
  rw [started] at taken
  refine ⟨_, serverRun taken trivial, { standing with phase := rfl, lane := ?_ }⟩
  refine ⟨_, worker, rfl, workers, token, flushed, quiet, ?_, ?_⟩
  · exact { sound.represents with streamTks := rfl }
  · have counted := sound.counted
    simp only [Mailbox.outstanding, queue, List.length_append, List.length_map,
      List.map_nil, List.length_nil] at counted ⊢
    omega

/-- With all kept streams waiting again, the tokens to be closed are handed to the loop. -/
theorem takeCloseTks
    (standing : net.Standing bincode (.keepAlive []) box clients)
    : net.Leads cfg bincode (.closing (box.streamCloseTks.map Prod.fst))
        { box with streamCloseTks := [] } clients := by
  obtain ⟨stream, worker, streams, workers, token, flushed, quiet, sound⟩ := standing.lane
  have queue := sound.represents.streamCloseTks
  simp only at queue
  have counted : stream.msgBuffer.streamCloseTks.length ≤ stream.numReqs := by
    have counted := sound.counted
    simp only [Mailbox.outstanding, ← queue, List.length_append, List.length_map] at counted
    omega
  have drained := UnixStream.drain_nextStreamCloseTk stream counted
  rw [queue] at drained
  have taken
      : net.server.step cfg bincode .advance
        = some
            { net.server with
              unixStreams :=
                [{ stream with
                    msgBuffer := { stream.msgBuffer with streamCloseTks := [] }
                    numReqs := stream.numReqs - box.streamCloseTks.length }]
              phase := .closing (box.streamCloseTks.map Prod.fst) } := by
    simp only [Server.step, standing.phase, Server.takeCloseTks, streams,
      UnixStreams.nextStreamCloseTks, UnixStreams.drainAll, drained, queue, List.append_nil]
  refine ⟨_, serverRun taken trivial, { standing with phase := rfl, lane := ?_ }⟩
  refine ⟨_, worker, rfl, workers, token, flushed, quiet, ?_, ?_⟩
  · exact { sound.represents with streamCloseTks := rfl }
  · have counted := sound.counted
    simp only [Mailbox.outstanding, List.length_append, List.length_map, List.map_nil,
      List.length_nil] at counted ⊢
    omega

/-- A step that changes the phase only. -/
theorem rephased {phase after : ServerPhase} {input : ServerInput}
    (standing : net.Standing bincode phase box clients)
    (taken
      : net.server.step cfg bincode input = some { net.server with phase := after })
    (few : net.server.FewAccepts input)
    : net.Leads cfg bincode after box clients :=
  ⟨_, serverRun taken few, { standing with phase := rfl }⟩

/-- The polled events, in an iteration with nothing to close. -/
theorem polls (standing : net.Standing bincode (.keepAlive []) box clients)
    (closed : box.streamCloseTks = []) (events : List MioEvent)
    : net.Leads cfg bincode (.events events) box clients := by
  have same : { box with streamCloseTks := [] } = box := by
    rw [← closed]
  refine (standing.takeCloseTks cfg).followed fun {closing} standing => ?_
  rw [closed, same] at standing
  have advances
      : closing.server.step cfg bincode .advance
        = some { closing.server with phase := .polling } := by
    simp only [Server.step, standing.phase, List.map_nil]
  refine (standing.rephased cfg advances trivial).followed fun {polling} standing => ?_
  have polled
      : polling.server.step cfg bincode (.poll (some events) true 0 fun _ => true)
        = some { polling.server with phase := .events events } := by
    simp [Server.step, standing.phase, Server.polled]
  exact standing.rephased cfg polled trivial

/-- An iteration up to its events, with nothing handed back. -/
theorem iterates (standing : net.Standing bincode .top box clients)
    (kept : box.streamTks = []) (closed : box.streamCloseTks = [])
    (events : List MioEvent)
    : net.Leads cfg bincode (.events events) box clients := by
  have same : { box with streamTks := [] } = box := by
    rw [← kept]
  refine (standing.top cfg).followed fun standing => ?_
  rw [kept, same] at standing
  exact standing.polls cfg closed events

/-- With all events handled, the loop is at its top. -/
theorem finishes
    (standing : net.Standing bincode (.events []) box clients)
    : net.Leads cfg bincode .top box clients := by
  have advances
      : net.server.step cfg bincode .advance = some { net.server with phase := .top } := by
    simp only [Server.step, standing.phase]
  exact standing.rephased cfg advances trivial

/-- A waiting stream's event hands it to the worker. -/
theorem dispatches {tk : Token} {tcpStream : TcpStream}
    (standing
      : net.Standing bincode (.events [⟨tk, true, false⟩]) box clients)
    (client : tk ≠ serverToken) (waits : clients.reading.lookup tk = some tcpStream)
    : net.Leads cfg bincode (.events [])
        { box with
          toSend := box.toSend ++ [(⟨tk, tcpStream.fd⟩, tcpStream.fd)] }
        { clients with
          reading := clients.reading.erase tk
          processing := clients.processing.insert tk tcpStream } := by
  obtain ⟨stream, worker, streams, workers, token, flushed, quiet, sound⟩ := standing.lane
  have first : UnixStreams.leastLoaded [stream] = 0 := by
    simp only [UnixStreams.leastLoaded, List.zipIdx_cons, List.zipIdx_nil, List.foldl_cons,
      List.foldl_nil]
    split <;> rfl
  have taken
      : net.server.step cfg bincode (.event ⟨none, true, .ok 0, 0, .ok 0⟩)
        = some
            { net.server with
              unixStreams := [stream.msgSendTcpStream tk tcpStream.fd]
              readingStreams := clients.reading.erase tk
              processingStreams := clients.processing.insert tk tcpStream
              registry := net.server.registry.erase tk
              phase := .events [] } := by
    simp only [Server.step, standing.phase, Server.handleEvent, client, if_false,
      standing.reading, waits, Server.dispatchStream, UnixStreams.msgSendTcpStream, streams,
      first, standing.processing, List.getElem?_cons_zero, List.set_cons_zero, if_true]
  have few : net.server.FewAccepts (.event ⟨none, true, .ok 0, 0, .ok 0⟩) :=
    fewAccepts_event rfl
  refine ⟨_, serverRun taken few,
    { standing with phase := rfl, reading := rfl, processing := rfl, lane := ?_ }⟩
  refine ⟨_, worker, rfl, workers, token, flushed, quiet, ?_, ?_⟩
  · exact sound.represents.reqTcpStreamFd tk tcpStream.fd
  · have counted := sound.counted
    simp only [UnixStream.msgSendTcpStream, Mailbox.outstanding, List.length_append,
      List.length_map, List.length_cons, List.length_nil] at counted ⊢
    omega

/-- A writable socket takes the one request that waits, whole. -/
theorem writes {request : Request} {fd : RawFd}
    (standing
      : net.Standing bincode (.events [⟨1, false, true⟩]) box clients)
    (waiting : box.toSend = [(request, fd)]) (other : clients.reading.lookup 1 = none)
    : net.Leads cfg bincode (.events [])
        { box with
          toSend := []
          requests := box.requests ++ [request]
          fds := box.fds ++ [fd] }
        clients := by
  obtain ⟨stream, worker, streams, workers, token, flushed, quiet, sound⟩ := standing.lane
  have queue := sound.represents.toSend.trans waiting
  simp only at queue
  let pending := (stream.msgBuffer.enqueueRequests bincode 1).1.writeBuffer.length
  obtain ⟨sent, rest, next, fds, result, split, wrote, rep⟩ :=
    sound.represents.serverWrote 1 (.ok pending)
  have emptied : next.toSend = [] ∧ next.writeBuffer = [] := by
    have first : (stream.msgBuffer.writeUnixStream bincode 1 (.ok pending)).1 = next :=
      congrArg Prod.fst wrote
    constructor
    · rw [← first]
      simp only [ServerMsgBuffer.writeUnixStream, ServerMsgBuffer.enqueueRequests, queue]
    · rw [← first]
      simp only [ServerMsgBuffer.writeUnixStream, pending, Nat.sub_self, List.take_zero]
  obtain ⟨rfl, rfl⟩ : sent = [(request, fd)] ∧ rest = [] := by
    have kept : rest = [] := rep.toSend.symm.trans emptied.1
    rw [kept, List.append_nil, waiting] at split
    exact ⟨split.symm, kept⟩
  let io : EventIo := ⟨none, true, .ok 0, 1, .ok pending⟩
  have taken
      : net.server.step cfg bincode (.event io)
        = some
            { net.server with
              unixStreams := [stream.writeStream bincode 1 (.ok pending)]
              phase := .events [] } := by
    have listener : (1 : Token) ≠ serverToken := by decide
    simp only [Server.step, standing.phase, Server.handleEvent, listener, if_false,
      standing.reading, other, UnixStreams.position?, streams, List.findIdx?_cons, token,
      beq_self_eq_true, if_true, List.getElem?_cons_zero, Server.unixStreamEvent,
      Bool.false_eq_true, Option.map_some, List.set_cons_zero, io]
  have few : net.server.FewAccepts (.event io) := fewAccepts_event rfl
  have became
      : stream.writeStream bincode 1 (.ok pending)
        = { stream with msgBuffer := next, stream := stream.stream.serverWrote fds result } := by
    simp only [UnixStream.writeStream, wrote]
  rw [became] at taken
  refine ⟨_, serverRun taken few, { standing with phase := rfl, lane := ?_ }⟩
  refine ⟨_, worker, rfl, workers, token, emptied.2, quiet, rep, ?_⟩
  have counted := sound.counted
  simp only [Mailbox.outstanding, waiting, List.length_append, List.length_map,
    List.length_cons, List.length_nil] at counted ⊢
  omega

/-- A readable socket with one whole response in it hands the response over. -/
theorem reads {response : Response}
    (standing
      : net.Standing bincode (.events [⟨1, true, false⟩]) box clients)
    (waiting : box.responses = [response]) (kept : response.kept) (idle : box.requests = [])
    (brief : (wordPrefixed.frame (bincode.serializeResponse response)).length ≤ 512)
    (other : clients.reading.lookup 1 = none)
    : net.Leads cfg bincode (.events [])
        { box with
          responses := []
          streamTks := box.streamTks ++ [(response.token, response.fd)] }
        clients := by
  obtain ⟨stream, worker, streams, workers, token, flushed, quiet, sound⟩ := standing.lane
  have arrived := sound.represents.responses.bytes
  simp only [waiting, quiet, List.append_nil, List.map_cons, List.map_nil,
    FrameFormat.stream_cons, FrameFormat.stream_nil] at arrived
  have fits : stream.stream.toServer.length ≤ stream.msgBuffer.readRoom := by
    have length := congrArg List.length arrived
    have room := sound.represents.serverRoom
    simp only [List.length_append] at length room
    omega
  let socket : UnixSocket := { stream.stream with toServer := [] }
  have received
      : stream.stream.serverReads stream.msgBuffer.readRoom
          (.ok stream.stream.toServer.length)
        = some (.ok stream.stream.toServer, socket) := by
    simp [UnixSocket.serverReads, fits, socket]
  obtain ⟨done, left, next, decoded, split, decodes, -, rep⟩ :=
    sound.represents.serverRead received
  obtain ⟨rfl, rfl⟩ : done = [response] ∧ left = [] := by
    have nothing : left = [] := rep.responses_nil rfl quiet
    rw [nothing, List.append_nil] at split
    exact ⟨split.symm.trans waiting, nothing⟩
  have unsent : next.writeBuffer = [] := by
    have bytes := rep.requests.bytes
    simp only [idle, List.map_nil, FrameFormat.stream_nil, List.append_eq_nil_iff] at bytes
    exact bytes.2.2
  let io : EventIo := ⟨none, true, .ok stream.stream.toServer.length, 0, .ok 0⟩
  have taken
      : net.server.step cfg bincode (.event io)
        = some
            { net.server with
              unixStreams := [{ stream with stream := socket, msgBuffer := next }]
              phase := .events [] } := by
    have listener : (1 : Token) ≠ serverToken := by decide
    simp only [Server.step, standing.phase, Server.handleEvent, listener, if_false,
      standing.reading, other, UnixStreams.position?, streams, List.findIdx?_cons, token,
      beq_self_eq_true, if_true, List.getElem?_cons_zero, Server.unixStreamEvent,
      UnixStream.readStream, received, decodes, Except.map, Bool.false_eq_true,
      Option.map_some, List.set_cons_zero, io]
  have few : net.server.FewAccepts (.event io) := fewAccepts_event rfl
  simp only [List.filter_cons, kept, List.filter_nil, if_true, Bool.not_true,
    Bool.false_eq_true, if_false, List.map_cons, List.map_nil, List.append_nil] at rep
  refine ⟨_, serverRun taken few, { standing with phase := rfl, lane := ?_ }⟩
  refine ⟨_, worker, rfl, workers, token, unsent, quiet, rep, ?_⟩
  have counted := sound.counted
  simp only [Mailbox.outstanding, waiting, List.length_append, List.length_map,
    List.length_cons, List.length_nil] at counted ⊢
  omega

/-- The last kept stream waits again, under its next token. -/
theorem keepsAlive {tk : Token} {tcpStream : TcpStream}
    (standing : net.Standing bincode (.keepAlive [tk]) box clients)
    (kept : clients.processing.lookup tk = some tcpStream)
    : net.Leads cfg bincode (.keepAlive []) box
        { clients with
          reading := clients.reading.insert (tk + keepAliveCountInc) tcpStream
          processing := clients.processing.erase tk
          assigned := clients.assigned ++ [tk + keepAliveCountInc] } := by
  have taken
      : net.server.step cfg bincode (.keepAlive true)
        = some
            { net.server with
              phase := .keepAlive []
              registry := net.server.registry.insert (tk + keepAliveCountInc) ⟨true, false⟩
              readingStreams := clients.reading.insert (tk + keepAliveCountInc) tcpStream
              processingStreams := clients.processing.erase tk
              assigned := clients.assigned ++ [tk + keepAliveCountInc] } := by
    simp only [Server.step, standing.phase, Server.keepAliveStream, standing.processing, kept,
      standing.up, standing.reading, standing.assigned, Bool.false_eq_true, if_false, if_true]
  exact ⟨_, serverRun taken trivial,
    { standing with phase := rfl, reading := rfl, processing := rfl, assigned := rfl }⟩

/-- The worker reads the whole request in the socket, with its descriptor. -/
theorem receives {phase : ServerPhase} {request : Request} {fd : RawFd}
    (standing : net.Standing bincode phase box clients)
    (sent : box.requests = [request]) (enqueued : box.fds = [fd])
    (unanswered : box.responses = [])
    : net.Leads cfg bincode phase
        { box with
          requests := []
          fds := []
          streamMsgs := box.streamMsgs ++ [request]
          streamFds := box.streamFds ++ [fd] }
        clients := by
  obtain ⟨stream, worker, streams, workers, token, flushed, quiet, sound⟩ := standing.lane
  have arrived := sound.represents.requests.bytes
  simp only [sent, flushed, List.append_nil, List.map_cons, List.map_nil,
    FrameFormat.stream_cons, FrameFormat.stream_nil] at arrived
  have queue : stream.stream.fds = [fd] := sound.represents.fds.trans enqueued
  have fits : stream.stream.toWorker.length ≤ worker.readRoom := by
    have length := congrArg List.length arrived
    have within := sound.represents.workerWithin
    have whole := sound.represents.workerLength
    simp only at within whole
    rw [List.length_append, WorkerMsgBuffer.leftover, List.length_take,
      FrameFormat.length_frame, bincode.length_serializeRequest] at length
    have header : bytePrefixed.header = 1 := rfl
    rw [WorkerMsgBuffer.readRoom]
    omega
  let socket : UnixSocket := { stream.stream with toWorker := [], fds := [] }
  have received
      : stream.stream.workerReads worker.readRoom 1 (.ok stream.stream.toWorker.length)
        = some (.ok stream.stream.toWorker, [fd], socket) := by
    simp [UnixSocket.workerReads, fits, queue, socket]
  obtain ⟨done, left, later, next, slices, split, rest, decodes, -, rep⟩ :=
    sound.represents.workerRead received
  obtain ⟨rfl, rfl⟩ : done = [request] ∧ left = [] := by
    have nothing : left = [] := rep.requests_nil rfl flushed
    rw [nothing, List.append_nil] at split
    exact ⟨split.symm.trans sent, nothing⟩
  obtain rfl : later = [] := by
    have same : [fd] = [fd] ++ later := enqueued.symm.trans rest
    simpa using same
  have unsent : next.writeBuffer = [] := by
    have bytes := rep.responses.bytes
    simp only [unanswered, List.map_nil, FrameFormat.stream_nil, List.append_eq_nil_iff]
      at bytes
    exact bytes.2.2
  have called
      : (stream.link worker).step bincode
          (.workerRead 1 (.ok stream.stream.toWorker.length))
        = some
            { stream.link worker with
              worker := next
              socket
              requestSlices := slices.toOption.getD [] } := by
    simp [Link.step, Link.answer, Link.transfer, UnixStream.link, Link.new, received, decodes]
  refine ⟨_, workerRun streams workers rfl called rfl, { standing with lane := ?_ }⟩
  refine ⟨_, next, rfl, rfl, token, flushed, unsent, rep, ?_⟩
  have counted := sound.counted
  simp only [Mailbox.outstanding, sent, List.length_append, List.length_map,
    List.length_cons, List.length_nil] at counted ⊢
  omega

/-- The worker pairs its only request with its only descriptor. -/
theorem pairs {phase : ServerPhase} {request : Request} {fd : RawFd}
    (standing : net.Standing bincode phase box clients)
    (decoded : box.streamMsgs = [request]) (dequeued : box.streamFds = [fd])
    (unheld : box.serverFds = ∅)
    : net.Leads cfg bincode phase
        { box with
          streamMsgs := []
          streamFds := []
          serverFds := (∅ : TokenMap RawFd).insert request.token request.fd }
        clients := by
  obtain ⟨stream, worker, streams, workers, token, flushed, quiet, sound⟩ := standing.lane
  have messages : worker.streamMsgs = [request] :=
    sound.represents.streamMsgs.trans decoded
  have descriptors : worker.streamFds = [fd] := sound.represents.streamFds.trans dequeued
  have held : worker.serverFds = ∅ := sound.represents.serverFds.trans unheld
  let next : WorkerMsgBuffer :=
    { worker with
      streamFds := []
      streamMsgs := []
      serverFds := (∅ : TokenMap RawFd).insert request.token request.fd }
  have paired : worker.nextStreamFd = some ((request.token, fd), next) := by
    simp only [WorkerMsgBuffer.nextStreamFd, messages, descriptors, held, next]
  have called
      : (stream.link worker).step bincode .nextStreamFd
        = some
            { stream.link worker with worker := next, delivered := [(request.token, fd)] } := by
    simp [Link.step, Link.answer, Link.transfer, UnixStream.link, Link.new, paired]
  refine ⟨_, workerRun streams workers rfl called rfl, { standing with lane := ?_ }⟩
  refine ⟨_, next, rfl, rfl, token, flushed, quiet, ?_, ?_⟩
  · exact { sound.represents with
      streamMsgs := rfl
      streamFds := rfl
      serverFds := rfl }
  · have counted := sound.counted
    simp only [Mailbox.outstanding, decoded, unheld, List.length_append, List.length_map,
      List.length_cons, List.length_nil, AList.keys_insert, AList.keys_empty,
      List.erase_nil] at counted ⊢
    omega

/-- The worker answers the token it holds, to be kept alive, and sends all of the answer. -/
theorem answers {phase : ServerPhase} {tk : Token} {fd : RawFd}
    (standing : net.Standing bincode phase box clients)
    (held : box.serverFds = (∅ : TokenMap RawFd).insert tk fd)
    (brief : (bincode.serializeResponse ⟨tk, fd, true, none⟩).length < 2 ^ 32)
    : net.Leads cfg bincode phase
        { box with
          serverFds := ∅
          responses := box.responses ++ [⟨tk, fd, true, none⟩] }
        clients := by
  obtain ⟨stream, worker, streams, workers, token, flushed, quiet, sound⟩ := standing.lane
  have stored : worker.serverFds = (∅ : TokenMap RawFd).insert tk fd :=
    sound.represents.serverFds.trans held
  have found : worker.serverFds.lookup tk = some fd := by
    rw [stored]
    exact AList.lookup_insert _
  let frame := wordPrefixed.frame (bincode.serializeResponse ⟨tk, fd, true, none⟩)
  have done : worker.respond bincode tk true none
      = .ok ({ worker with serverFds := ∅, writeBuffer := frame }, ⟨tk, fd, true, none⟩) := by
    rw [WorkerMsgBuffer.respond_spec found, stored, erase_insert_empty, quiet]
    rfl
  obtain ⟨-, -, responded⟩ := sound.represents.responded done brief
  have answered
      : (stream.link worker).step bincode (.respStreamDoneOk tk fd true)
        = some
            { stream.link worker with
              worker := { worker with serverFds := ∅, writeBuffer := frame }
              answered := [⟨tk, fd, true, none⟩] } := by
    simp [Link.step, Link.answer, WorkerMsgBuffer.respStreamDoneOk, UnixStream.link, Link.new,
      done]
  obtain ⟨last, result, wrote, rep⟩ := responded.workerWrote (.ok frame.length)
  have sent : last.writeBuffer = [] := by
    have first := congrArg Prod.fst wrote
    simp only [WorkerMsgBuffer.writeUnixStream, Nat.sub_self, List.take_zero] at first
    rw [← first]
  have called
      : (stream.link { worker with serverFds := ∅, writeBuffer := frame }).step bincode
          (.workerWrite (.ok frame.length))
        = some
            { stream.link { worker with serverFds := ∅, writeBuffer := frame } with
              worker := last
              socket := stream.stream.workerWrote result } := by
    simp only [Link.step, Link.answer, Link.transfer, UnixStream.link, Link.new, wrote,
      Option.isSome_none, Bool.false_eq_true, if_false]
  let between : Net :=
    { server := { net.server with unixStreams := [stream] }
      workers := [{ worker with serverFds := ∅, writeBuffer := frame }] }
  have first : Reach (Net.step cfg bincode) Net.FewAccepts net between :=
    workerRun streams workers rfl answered rfl
  have streams' : between.server.unixStreams = [stream] := rfl
  have workers' : between.workers = [{ worker with serverFds := ∅, writeBuffer := frame }] :=
    rfl
  refine ⟨_, first.trans (workerRun streams' workers' rfl called rfl),
    { standing with lane := ?_ }⟩
  refine ⟨_, last, rfl, rfl, token, flushed, sent, ?_, ?_⟩
  · rw [held, erase_insert_empty] at rep
    exact rep
  · have counted := sound.counted
    simp only [Mailbox.outstanding, held, List.length_append, List.length_map,
      List.length_cons, List.length_nil, AList.keys_insert, AList.keys_empty,
      List.erase_nil] at counted ⊢
    omega

/-- The listener's event lets one connection in, below the limit. -/
theorem accepts {evs : List MioEvent}
    (standing
      : net.Standing bincode (.events (⟨serverToken, true, false⟩ :: evs)) box clients)
    (tcpStream : TcpStream)
    (below : clients.reading.keys.length + clients.processing.keys.length < cfg.maxConns)
    (few : clients.accepted + 1 < 2 ^ 40 - 1)
    : net.Leads cfg bincode (.events evs) box
        { clients with
          reading :=
            clients.reading.insert
              (UInt64.ofNat ((clients.accepted + 1) * newStreamCountInc)) tcpStream
          assigned :=
            clients.assigned
            ++ [UInt64.ofNat ((clients.accepted + 1) * newStreamCountInc)]
          accepted := clients.accepted + 1 } := by
  let io : EventIo := ⟨some tcpStream, true, .ok 0, 0, .ok 0⟩
  have taken
      : net.server.step cfg bincode (.event io)
        = some
            { net.server with
              phase := .events evs
              clientStreamCount := clients.accepted + 1
              assigned :=
                clients.assigned
                ++ [UInt64.ofNat ((clients.accepted + 1) * newStreamCountInc)]
              registry :=
                net.server.registry.insert
                  (UInt64.ofNat ((clients.accepted + 1) * newStreamCountInc)) ⟨true, false⟩
              readingStreams :=
                clients.reading.insert
                  (UInt64.ofNat ((clients.accepted + 1) * newStreamCountInc)) tcpStream } := by
    simp only [Server.step, standing.phase, Server.handleEvent, if_true, Server.acceptStream,
      standing.reading, standing.processing, Nat.not_le.mpr below, if_false,
      Server.nextClientToken, standing.accepted, standing.assigned, io]
  have allowed : net.server.FewAccepts (.event io) := by
    intro _
    rw [standing.accepted]
    exact few
  exact ⟨_, serverRun taken allowed,
    { standing with phase := rfl, reading := rfl, assigned := rfl, accepted := rfl }⟩

-----------------------------------------------------------------------------------------
-- One request of a kept connection
-----------------------------------------------------------------------------------------

/-- The mailbox with one request on its way. -/
def requested (tk : Token) (fd : RawFd) : Mailbox :=
  { Mailbox.empty with requests := [⟨tk, fd⟩], fds := [fd] }

/-- The mailbox with the answer to it on its way back. -/
def answered (tk : Token) (fd : RawFd) : Mailbox :=
  { Mailbox.empty with responses := [⟨tk, fd, true, none⟩] }

/-- A waiting stream's request reaches the socket. -/
theorem handsOver {tk : Token} {tcpStream : TcpStream}
    (standing : net.Standing bincode .top .empty clients) (client : tk ≠ serverToken)
    (waits : clients.reading.lookup tk = some tcpStream)
    (other : (clients.reading.erase tk).lookup 1 = none)
    : net.Leads cfg bincode .top (requested tk tcpStream.fd)
        { clients with
          reading := clients.reading.erase tk
          processing := clients.processing.insert tk tcpStream } := by
  refine (standing.iterates cfg rfl rfl [⟨tk, true, false⟩]).followed fun polled => ?_
  refine (polled.dispatches cfg client waits).followed fun queued => ?_
  refine (queued.finishes cfg).followed fun again => ?_
  refine (again.iterates cfg rfl rfl [⟨1, false, true⟩]).followed fun writable => ?_
  refine (writable.writes cfg rfl other).followed fun written => ?_
  exact written.finishes cfg

/-- The worker serves the request. -/
theorem serves {tk : Token} {fd : RawFd}
    (standing : net.Standing bincode .top (requested tk fd) clients)
    (short : (bincode.serializeResponse ⟨tk, fd, true, none⟩).length < 2 ^ 32)
    : net.Leads cfg bincode .top (answered tk fd) clients := by
  refine (standing.receives cfg rfl rfl rfl).followed fun received => ?_
  refine (received.pairs cfg rfl rfl rfl).followed fun paired => ?_
  exact paired.answers cfg rfl short

/-- The stream waits again, under its next token. -/
theorem takesBack {tk : Token} {tcpStream : TcpStream}
    (standing : net.Standing bincode .top (answered tk tcpStream.fd) clients)
    (kept : clients.processing.lookup tk = some tcpStream)
    (brief
      : (wordPrefixed.frame
          (bincode.serializeResponse ⟨tk, tcpStream.fd, true, none⟩)).length
        ≤ 512)
    (other : clients.reading.lookup 1 = none)
    : net.Leads cfg bincode .top .empty
        { clients with
          reading := clients.reading.insert (tk + keepAliveCountInc) tcpStream
          processing := clients.processing.erase tk
          assigned := clients.assigned ++ [tk + keepAliveCountInc] } := by
  refine (standing.iterates cfg rfl rfl [⟨1, true, false⟩]).followed fun readable => ?_
  refine (readable.reads cfg rfl rfl rfl brief other).followed fun read => ?_
  refine (read.finishes cfg).followed fun again => ?_
  refine (again.top cfg).followed fun keeping => ?_
  refine (keeping.keepsAlive cfg kept).followed fun waiting => ?_
  refine (waiting.polls cfg rfl []).followed fun polled => ?_
  exact polled.finishes cfg

/-- One request of a kept connection, from one wait to the next. -/
theorem round {tk : Token} {tcpStream : TcpStream}
    (standing : net.Standing bincode .top .empty clients) (client : tk ≠ serverToken)
    (waits : clients.reading.lookup tk = some tcpStream)
    (idle : clients.processing = ∅) (other : clients.reading.lookup 1 = none)
    (brief
      : (wordPrefixed.frame
          (bincode.serializeResponse ⟨tk, tcpStream.fd, true, none⟩)).length
        ≤ 512)
    : net.Leads cfg bincode .top .empty
        { clients with
          reading :=
            (clients.reading.erase tk).insert (tk + keepAliveCountInc) tcpStream
          assigned := clients.assigned ++ [tk + keepAliveCountInc] } := by
  have unread : (clients.reading.erase tk).lookup 1 = none := by
    by_cases same : (1 : Token) = tk
    · rw [same]
      exact AList.lookup_erase _ _
    · rw [AList.lookup_erase_ne same]
      exact other
  have short : (bincode.serializeResponse ⟨tk, tcpStream.fd, true, none⟩).length < 2 ^ 32 := by
    rw [FrameFormat.length_frame] at brief
    omega
  refine (standing.handsOver cfg client waits unread).followed fun sent => ?_
  refine (sent.serves cfg short).followed fun served => ?_
  have back := served.takesBack cfg (AList.lookup_insert _) brief unread
  rw [idle, erase_insert_empty, ← idle] at back
  exact back

/-- Any number of requests of one connection, as long as the tokens do not wrap around.
Witness: induction on the number, one round each.
-/
theorem rounds {tk : Token} {tcpStream : TcpStream}
    (standing : net.Standing bincode .top .empty clients) (client : 2 ≤ tk.toNat)
    (waits : clients.reading.lookup tk = some tcpStream)
    (idle : clients.processing = ∅) (other : clients.reading.lookup 1 = none)
    (brief
      : ∀ tk,
          (wordPrefixed.frame
            (bincode.serializeResponse ⟨tk, tcpStream.fd, true, none⟩)).length
          ≤ 512)
    (n : Nat) (bound : tk.toNat + 2 ^ 7 * n < 2 ^ 64)
    : ∃ reading,
        reading.lookup (nthToken tk n) = some tcpStream
        ∧ reading.lookup 1 = none
        ∧ net.Leads cfg bincode .top .empty
            { clients with
              reading
              assigned :=
                clients.assigned ++ (List.range n).map fun k => nthToken tk (k + 1) } := by
  induction n with
  | zero =>
      have same : nthToken tk 0 = tk := UInt64.add_zero tk
      refine ⟨clients.reading, by rw [same, waits], other, net, .start, ?_⟩
      simpa using standing
  | succ n ih =>
      obtain ⟨reading, waiting, unread, between, first, standing⟩ := ih (by omega)
      have value : (nthToken tk n).toNat = tk.toNat + 2 ^ 7 * n := by
        rw [nthToken, UInt64.toNat_add, UInt64.toNat_ofNat']
        omega
      have next : nthToken tk n + keepAliveCountInc = nthToken tk (n + 1) := by
        have step : keepAliveCountInc = UInt64.ofNat (2 ^ 7) := rfl
        rw [nthToken, nthToken, Nat.mul_succ, UInt64.ofNat_add, step, UInt64.add_assoc]
      have nextValue : (nthToken tk (n + 1)).toNat = tk.toNat + 2 ^ 7 * (n + 1) := by
        rw [nthToken, UInt64.toNat_add, UInt64.toNat_ofNat']
        omega
      have notListener : nthToken tk n ≠ serverToken := by
        intro same
        have zero : (nthToken tk n).toNat = 0 := by
          rw [same]
          rfl
        omega
      have notSocket : (1 : Token) ≠ nthToken tk n := by
        intro same
        have one : (nthToken tk n).toNat = 1 := by
          rw [← same]
          rfl
        omega
      have nextNotSocket : (1 : Token) ≠ nthToken tk (n + 1) := by
        intro same
        have one : (nthToken tk (n + 1)).toNat = 1 := by
          rw [← same]
          rfl
        omega
      obtain ⟨after, second, standing⟩ :=
        standing.round cfg notListener waiting idle unread (brief _)
      rw [next] at standing
      refine ⟨(reading.erase (nthToken tk n)).insert (nthToken tk (n + 1)) tcpStream, ?_, ?_,
        after, first.trans second, ?_⟩
      · exact AList.lookup_insert _
      · rw [AList.lookup_insert_ne nextNotSocket, AList.lookup_erase_ne notSocket]
        exact unread
      · simpa [List.range_succ] using standing

/-- A fresh net with one worker stands at the top, idle. -/
theorem new (bincode : Bincode)
    : (Net.new 1).Standing bincode .top .empty ⟨∅, ∅, [], 0⟩ where
  phase := rfl
  up := rfl
  calm := rfl
  reading := rfl
  processing := rfl
  assigned := rfl
  accepted := rfl
  lane :=
    ⟨.new 1 .pair, .new, rfl, rfl, rfl, rfl, rfl, .new bincode, rfl⟩

end Net.Standing

-----------------------------------------------------------------------------------------
-- Runs of the net that stay in range
-----------------------------------------------------------------------------------------

/-- The server stays in range, and serialized responses are shorter than 2^32 bytes. -/
def Net.InRange (bincode : Bincode) (net : Net) : NetInput → Prop
  | .server input => net.server.InRange (.input input)
  | .worker n op =>
      ∀ stream ∈ net.server.unixStreams[n]?,
      ∀ worker ∈ net.workers[n]?,
        (stream.link worker).ShortResponse bincode op

/-- A run of the net that stays in range is a run of its server alone, with the sockets in
other hands. Witness: induction on the run.
-/
theorem Net.server_run {cfg : Config} {bincode : Bincode} {workers : Nat} {net : Net}
    (run : Reach (Net.step cfg bincode) (Net.InRange bincode) (Net.new workers) net)
    : Reach (Server.openStep cfg bincode) Server.InRange (Server.new workers) net.server := by
  induction run with
  | start => exact .start
  | @next before label after earlier allowed taken ih =>
      cases label with
      | server input =>
          obtain ⟨server, stepped, rfl⟩ := Option.map_eq_some_iff.mp taken
          have inRange : before.server.InRange (.input input) := allowed
          exact ih.next inRange stepped
      | worker n op =>
          obtain ⟨stream, worker, link, found, -, -, -, -, rfl⟩ := Net.workerStep_inv taken
          have free : before.server.InRange (.socket n link.socket) := trivial
          refine ih.next free ?_
          simp only [Server.openStep, Server.withSocket, found, Option.map_some]

/-- A run that stays in range keeps the promise that no two open streams carry one token,
so the dispatch protocol holds in it without that promise.
-/
theorem Net.promises_kept {cfg : Config} {bincode : Bincode} {workers : Nat} {net : Net}
    (run : Reach (Net.step cfg bincode) (Net.InRange bincode) (Net.new workers) net)
    : Reach (Net.step cfg bincode) (Net.Promises cfg bincode) (Net.new workers) net := by
  induction run with
  | start => exact .start
  | @next before label after earlier allowed taken ih =>
      refine ih.next ?_ taken
      cases label with
      | server input =>
          have inRange : before.server.InRange (.input input) := allowed
          have tracked := Server.tracked_reached (Net.server_run earlier)
          exact tracked.fresh inRange.1 inRange.2
      | worker n op => exact allowed

-----------------------------------------------------------------------------------------
-- Token freshness
-----------------------------------------------------------------------------------------

/-- While no stream is kept alive past its connection's last token, all assigned tokens are
distinct, so are the open ones, and no insertion overwrites another stream's entry: not the
next opened stream's, nor that of a waiting stream handed to a worker.
-/
theorem tokens_distinct (cfg : Config) (bincode : Bincode) (workers : Nat) {server : Server}
    (run
      : Reach (Server.openStep cfg bincode) Server.InRange (Server.new workers) server)
    : server.assigned.Nodup
      ∧ (∀ input,
          server.FewAccepts input → server.KeptInRange input →
          server.FreshToken cfg input)
      ∧ ∀ tk ∈ server.readingStreams.keys, tk ∉ server.processingStreams.keys := by
  have tracked := Server.tracked_reached run
  refine ⟨tracked.distinct, fun _ few kept => tracked.fresh few kept, ?_⟩
  intro tk reading processing
  exact (List.nodup_append.mp tracked.nodup).2.2 tk reading tk processing rfl

/-- Two connections, each with the first token of its own range. A worker hands the first one
back to be kept alive, with the next token of that range.
-/
theorem tokens_distinct_accepted
    : ∃ server : Server,
        server.assigned = [16777216, 33554432, 16777344]
        ∧ server.readingStreams.keys = [16777344, 33554432]
        ∧ server.assigned.Nodup := by
  let io (fd : RawFd) : EventIo := ⟨some ⟨fd⟩, true, .ok 0, 0, .ok 0⟩
  let answer : Bytes :=
    wordPrefixed.frame (Bincode.fixint.serializeResponse ⟨16777216, 7, true, none⟩)
  let top : List ServerInput := [.top none false fun _ => true]
  let poll (event : MioEvent) : ServerInput := .poll (some [event]) true 0 fun _ => true
  let accepts : List ServerInput :=
    top
    ++ [.advance, .advance, poll ⟨0, true, false⟩, .event (io 7), .advance]
    ++ top
    ++ [.advance, .advance, poll ⟨0, true, false⟩, .event (io 8), .advance]
  let hands : List ServerInput :=
    top
    ++ [.advance, .advance, poll ⟨16777216, true, false⟩,
      .event ⟨none, true, .ok 0, 0, .ok 0⟩, .advance]
    ++ top
  let reads : List ServerInput :=
    [.advance, .advance, poll ⟨1, true, false⟩,
      .event ⟨none, true, .ok answer.length, 0, .ok 0⟩, .advance]
    ++ top
    ++ [.keepAlive true]
  let step := Server.openStep (.default "casket") .fixint
  have runs
      : (exec step Server.InRange (.new 1)
            ((accepts ++ hands).map .input
              ++ .socket 0 { UnixSocket.pair with toServer := answer } :: reads.map .input)).map
          (fun server => (server.assigned, server.readingStreams.keys))
        = some ([16777216, 33554432, 16777344], [16777344, 33554432]) := by
    decide +kernel
  obtain ⟨server, done, same⟩ := Option.map_eq_some_iff.mp runs
  obtain ⟨assigned, reading⟩ := Prod.mk.inj same
  have distinct := tokens_distinct (.default "casket") .fixint 1 (Reach.of_exec _ done)
  exact ⟨server, assigned, reading, distinct.1⟩

/-- Two connections, the first kept alive for 2^17 more requests: the last of its tokens is
the second connection's first.
-/
theorem tokens_collide
    : ∃ net : Net,
        Reach (Net.step (.default "casket") .fixint) Net.FewAccepts (Net.new 1) net
        ∧ net.server.clientStreamCount = 2
        ∧ ¬ net.server.assigned.Nodup := by
  have brief
      : ∀ tk,
          (wordPrefixed.frame
            (Bincode.fixint.serializeResponse ⟨tk, 7, true, none⟩)).length
          ≤ 512 := by
    intro tk
    have header : wordPrefixed.header = 4 := rfl
    simp [FrameFormat.length_frame, Bincode.fixint, Fixint.serializeResponse, Fixint.u64,
      Fixint.i32, Fixint.serializeText, header]
  obtain ⟨polled, first, standing⟩ :=
    (Net.Standing.new .fixint).iterates (.default "casket") rfl rfl
      [⟨serverToken, true, false⟩, ⟨serverToken, true, false⟩]
  obtain ⟨one, second, standing⟩ :=
    standing.accepts (.default "casket") ⟨7⟩ (by decide) (by decide)
  obtain ⟨two, third, standing⟩ :=
    standing.accepts (.default "casket") ⟨8⟩ (by decide) (by decide)
  obtain ⟨waiting, fourth, standing⟩ := standing.finishes (.default "casket")
  obtain ⟨reading, -, -, last, kept, ends⟩ :=
    @Net.Standing.rounds (.default "casket") _ _ _ (UInt64.ofNat newStreamCountInc) ⟨7⟩
      standing (by decide) rfl rfl rfl brief (131071 + 1) (by decide)
  refine ⟨last, (((first.trans second).trans third).trans fourth).trans kept, ?_, ?_⟩
  · exact ends.accepted
  · rw [ends.assigned]
    intro distinct
    have again
        : nthToken (UInt64.ofNat newStreamCountInc) (131071 + 1)
          ∈ (List.range (131071 + 1)).map fun k =>
              nthToken (UInt64.ofNat newStreamCountInc) (k + 1) :=
      List.mem_map_of_mem (List.mem_range.mpr (Nat.lt_succ_self _))
    have before
        : nthToken (UInt64.ofNat newStreamCountInc) (131071 + 1)
          = UInt64.ofNat ((1 + 1) * newStreamCountInc) := by
      decide
    rw [before] at again
    have known
        : UInt64.ofNat ((1 + 1) * newStreamCountInc)
          ∈ [UInt64.ofNat ((0 + 1) * newStreamCountInc),
              UInt64.ofNat ((1 + 1) * newStreamCountInc)] :=
      List.mem_cons_of_mem _ List.mem_cons_self
    exact (List.nodup_append.mp distinct).2.2 _ known _ again rfl

end Casket
