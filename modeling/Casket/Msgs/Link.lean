import Casket.Lib.Runs
import Casket.Msgs.Mailbox

/-! Runs of one server-worker connection: every sequence of calls on the two message
buffers, with the socket cutting reads and writes anywhere and refusing what it likes.
The ledger records what was asked for and what came out.
-/

namespace Casket

open Lib UnixSocket

/-- The two ends of a connection, and the calls made so far with their results. -/
structure Link where
  server : ServerMsgBuffer
  socket : UnixSocket
  worker : WorkerMsgBuffer
  requested : List (Token × RawFd)
  delivered : List (Token × RawFd)
  requestSlices : List Bytes
  answered : List Response
  decoded : List Response
  keptTks : List Token
  closedTks : List Token
  panicked : Option Panic

/-- A call, with what the socket does in it: the number of descriptors it takes or makes
ready, and the number of bytes it moves or its error.
-/
inductive LinkOp where
  | reqTcpStreamFd (tk : Token) (fd : RawFd)
  | serverWrite (accepted : Nat) (write : Except IoError Nat)
  | serverRead (read : Except IoError Nat)
  | nextStreamTk
  | nextStreamCloseTk
  | workerRead (ready : Nat) (read : Except IoError Nat)
  | workerWrite (write : Except IoError Nat)
  | nextStreamFd
  | respIoError (tk : Token) (err : IoError)
  | respBadClient (tk : Token)
  | respStreamRegError (tk : Token) (err : IoError)
  | respStreamDoneOk (tk : Token) (fd : RawFd) (keepAlive : Bool)

namespace Link

def new : Link where
  server := .new
  socket := .pair
  worker := .new
  requested := []
  delivered := []
  requestSlices := []
  answered := []
  decoded := []
  keptTks := []
  closedTks := []
  panicked := none

/-- The responding call an operation makes, with its result. -/
def answer (bincode : Bincode) (link : Link)
    : LinkOp → Option (Except Panic (WorkerMsgBuffer × Response))
  | .respIoError tk err => some (link.worker.respIoError bincode tk err)
  | .respBadClient tk => some (link.worker.respBadClient bincode tk)
  | .respStreamRegError tk err => some (link.worker.respStreamRegError bincode tk err)
  | .respStreamDoneOk tk fd keepAlive =>
      some (link.worker.respStreamDoneOk bincode tk fd keepAlive)
  | _ => none

/-- The calls that are not answers. -/
def transfer (bincode : Bincode) (link : Link) : LinkOp → Option Link
  | .reqTcpStreamFd tk fd =>
      some
        { link with
          server := link.server.reqTcpStreamFd tk fd
          requested := link.requested ++ [(tk, fd)] }
  | .serverWrite accepted write =>
      let (server, fds, result) := link.server.writeUnixStream bincode accepted write
      some { link with server, socket := link.socket.serverWrote fds result }
  | .serverRead read =>
      (link.socket.serverReads link.server.readRoom read).map fun (result, socket) =>
        match link.server.readUnixStream bincode result with
        | .error panic => { link with panicked := some panic }
        | .ok (server, msgs) =>
            { link with
              server
              socket
              decoded := link.decoded ++ msgs.toOption.getD [] }
  | .nextStreamTk =>
      match link.server.nextStreamTk with
      | none => some link
      | some (tk, server) => some { link with server, keptTks := link.keptTks ++ [tk] }
  | .nextStreamCloseTk =>
      match link.server.nextStreamCloseTk with
      | none => some link
      | some (tk, server) => some { link with server, closedTks := link.closedTks ++ [tk] }
  | .workerRead ready read =>
      (link.socket.workerReads link.worker.readRoom ready read).map
        fun (result, dequeued, socket) =>
          match link.worker.readUnixStream bincode result dequeued with
          | .error panic => { link with panicked := some panic }
          | .ok (worker, slices) =>
              { link with
                worker
                socket
                requestSlices := link.requestSlices ++ slices.toOption.getD [] }
  | .workerWrite write =>
      let (worker, result) := link.worker.writeUnixStream write
      some { link with worker, socket := link.socket.workerWrote result }
  | .nextStreamFd =>
      match link.worker.nextStreamFd with
      | none => some link
      | some (pair, worker) =>
          some { link with worker, delivered := link.delivered ++ [pair] }
  | _ => none

/-- One call. A panic ends the run; a read the socket cannot return is refused. -/
def step (bincode : Bincode) (link : Link) (op : LinkOp) : Option Link :=
  if link.panicked.isSome then
    none
  else
    match link.answer bincode op with
    | some (.error panic) => some { link with panicked := some panic }
    | some (.ok (worker, response)) =>
        some { link with worker, answered := link.answered ++ [response] }
    | none => link.transfer bincode op

/-- The environment's promise: each serialized response is shorter than 2^32 bytes. -/
def ShortResponse (bincode : Bincode) (link : Link) (op : LinkOp) : Prop :=
  ∀ answered ∈ link.answer bincode op,
  ∀ sent ∈ answered.toOption,
    (bincode.serializeResponse sent.2).length < 2 ^ 32

instance (bincode : Bincode) (link : Link) (op : LinkOp)
    : Decidable (link.ShortResponse bincode op) :=
  inferInstanceAs
    (Decidable
      (∀ answered ∈ link.answer bincode op, ∀ sent ∈ answered.toOption,
        (bincode.serializeResponse sent.2).length < 2 ^ 32))

end Link

-----------------------------------------------------------------------------------------
-- The ledger balances against the mailbox
-----------------------------------------------------------------------------------------

/-- The request for a pair, as `req_tcp_stream_fd` makes it. -/
def Request.ofPair (pair : Token × RawFd) : Request := ⟨pair.1, pair.2⟩

theorem Request.ofPair_injective : Function.Injective Request.ofPair := by
  rintro ⟨token, fd⟩ ⟨token', fd'⟩ same
  simpa [Request.ofPair] using same

/-- Everything asked for is, in order, what came out followed by what each queue of the
mailbox still holds; likewise for the answers on their way back.
-/
structure Link.Balanced (bincode : Bincode) (link : Link) (box : Mailbox) : Prop where
  represents : box.Represents bincode link.server link.socket link.worker
  requests
    : link.requested.map Request.ofPair
      = link.delivered.map Request.ofPair
        ++ (box.streamMsgs ++ (box.requests ++ box.toSend.map Prod.fst))
  fds
    : link.requested.map Prod.snd
      = link.delivered.map Prod.snd
        ++ (box.streamFds ++ (box.fds ++ box.toSend.map Prod.snd))
  slices
    : link.requestSlices
      = (link.delivered.map Request.ofPair ++ box.streamMsgs).map bincode.serializeRequest
  responses : link.answered = link.decoded ++ box.responses
  kept
    : (link.decoded.filter (·.kept)).map (·.token)
      = link.keptTks ++ box.streamTks.map Prod.fst
  closed
    : (link.decoded.filter (!·.kept)).map (·.token)
      = link.closedTks ++ box.streamCloseTks.map Prod.fst
  panicked : link.panicked = none ∨ link.panicked = some .serverFd

namespace Link.Balanced

theorem new (bincode : Bincode) : Link.new.Balanced bincode .empty where
  represents := .new bincode
  requests := rfl
  fds := rfl
  slices := rfl
  responses := rfl
  kept := rfl
  closed := rfl
  panicked := .inl rfl

variable {bincode : Bincode} {link next : Link} {box : Mailbox}

/-- The message and the descriptor at one position were requested together. Witness: both
sit right behind the pairs already delivered.
-/
theorem paired (balanced : link.Balanced bincode box) {msg : Request} {msgs : List Request}
    {fd : RawFd} {fds : List RawFd} (first : box.streamMsgs = msg :: msgs)
    (front : box.streamFds = fd :: fds)
    : Request.ofPair (msg.token, fd) = msg := by
  have message := congrArg (·[link.delivered.length]?) balanced.requests
  have descriptor := congrArg (·[link.delivered.length]?) balanced.fds
  simp only [first, front, List.cons_append] at message descriptor
  rw [List.getElem?_append_right (by simp)] at message descriptor
  simp only [List.length_map, Nat.sub_self, List.getElem?_cons_zero, List.getElem?_map,
    Option.map_eq_some_iff] at message descriptor
  obtain ⟨pair, at_, rfl⟩ := message
  obtain ⟨other, same, rfl⟩ := descriptor
  obtain rfl := Option.some.inj (at_.symm.trans same)
  rfl

/-- Every answering call is one `respond`. -/
theorem answer_respond {op : LinkOp} {result : Except Panic (WorkerMsgBuffer × Response)}
    (answers : link.answer bincode op = some result)
    : ∃ tk keepAlive error,
        link.worker.respond bincode tk keepAlive error = result := by
  cases op <;> simp only [answer, Option.some.injEq, reduceCtorEq] at answers
  all_goals exact ⟨_, _, _, answers⟩

/-- The only panic of an answer is on a token the worker does not hold. -/
theorem answer_panics {op : LinkOp} {panic : Panic}
    (answers : link.answer bincode op = some (.error panic))
    : panic = .serverFd := by
  obtain ⟨tk, keepAlive, error, done⟩ := answer_respond answers
  unfold WorkerMsgBuffer.respond at done
  split at done
  · exact (Except.error.inj done).symm
  · cases done

/-- An answer moves its token from the worker to the wire back. -/
theorem answered (balanced : link.Balanced bincode box) {op : LinkOp}
    {worker : WorkerMsgBuffer} {response : Response}
    (answers : link.answer bincode op = some (.ok (worker, response)))
    (short : link.ShortResponse bincode op)
    : ∃ box,
        ({ link with worker, answered := link.answered ++ [response] } : Link).Balanced
          bincode box := by
  obtain ⟨tk, keepAlive, error, done⟩ := answer_respond answers
  obtain ⟨-, -, rep⟩ := balanced.represents.responded done (short _ answers _ rfl)
  exact ⟨_, { balanced with
    represents := rep
    responses := by simp [balanced.responses] }⟩

/-- Every other call moves whole messages between neighbouring queues, and the ledger
follows. Witness: one case for each call, by its lemma on the represented mailbox.
-/
theorem transferred (balanced : link.Balanced bincode box) {op : LinkOp}
    (moved : link.transfer bincode op = some next)
    : ∃ box, next.Balanced bincode box := by
  have rep := balanced.represents
  cases op with
  | reqTcpStreamFd tk fd =>
      obtain rfl := Option.some.inj moved
      exact ⟨_, { balanced with
        represents := rep.reqTcpStreamFd tk fd
        requests := by simp [balanced.requests, Request.ofPair]
        fds := by simp [balanced.fds] }⟩
  | serverWrite accepted write =>
      obtain ⟨sent, rest, server, fds, result, split, wrote, after⟩ :=
        rep.serverWrote accepted write
      simp only [transfer, wrote] at moved
      obtain rfl := Option.some.inj moved
      exact ⟨_, { balanced with
        represents := after
        requests := by simp [balanced.requests, split]
        fds := by simp [balanced.fds, split] }⟩
  | serverRead read =>
      obtain ⟨⟨result, socket⟩, reads, rfl⟩ := Option.map_eq_some_iff.mp moved
      obtain ⟨done, left, server, msgs, split, decoded, rfl, after⟩ := rep.serverRead reads
      simp only [decoded]
      exact ⟨_, { balanced with
        represents := after
        responses := by simp [balanced.responses, split]
        kept := by simp [balanced.kept, Function.comp_def]
        closed := by simp [balanced.closed, Function.comp_def] }⟩
  | nextStreamTk =>
      simp only [transfer] at moved
      split at moved
      · exact Option.some.inj moved ▸ ⟨box, balanced⟩
      · next tk server taken =>
          obtain rfl := Option.some.inj moved
          obtain ⟨fd, rest, first, after⟩ := rep.nextStreamTk taken
          exact ⟨_, { balanced with
            represents := after
            kept := by simp [balanced.kept, first] }⟩
  | nextStreamCloseTk =>
      simp only [transfer] at moved
      split at moved
      · exact Option.some.inj moved ▸ ⟨box, balanced⟩
      · next tk server taken =>
          obtain rfl := Option.some.inj moved
          obtain ⟨fd, rest, first, after⟩ := rep.nextStreamCloseTk taken
          exact ⟨_, { balanced with
            represents := after
            closed := by simp [balanced.closed, first] }⟩
  | workerRead ready read =>
      obtain ⟨⟨result, dequeued, socket⟩, reads, rfl⟩ := Option.map_eq_some_iff.mp moved
      obtain ⟨done, left, later, worker, slices, split, queue, decoded, taken, after⟩ :=
        rep.workerRead reads
      simp only [decoded, taken]
      exact ⟨_, { balanced with
        represents := after
        requests := by simp [balanced.requests, split]
        fds := by simp [balanced.fds, queue]
        slices := by simp [balanced.slices] }⟩
  | workerWrite write =>
      obtain ⟨worker, result, wrote, after⟩ := rep.workerWrote write
      simp only [transfer, wrote] at moved
      obtain rfl := Option.some.inj moved
      exact ⟨_, { balanced with represents := after }⟩
  | nextStreamFd =>
      simp only [transfer] at moved
      split at moved
      · exact Option.some.inj moved ▸ ⟨box, balanced⟩
      · next pair worker paired =>
          obtain ⟨tk, fd⟩ := pair
          obtain rfl := Option.some.inj moved
          obtain ⟨msg, msgs, fds, first, front, rfl, after⟩ := rep.nextStreamFd paired
          have together := balanced.paired first front
          exact ⟨_, { balanced with
            represents := after
            requests := by simp [balanced.requests, first, together]
            fds := by simp [balanced.fds, front]
            slices := by simp [balanced.slices, first, together] }⟩
  | respIoError | respBadClient | respStreamRegError | respStreamDoneOk => cases moved

/-- One call keeps the ledger balanced. -/
theorem stepped (balanced : link.Balanced bincode box) {op : LinkOp}
    (short : link.ShortResponse bincode op) (taken : link.step bincode op = some next)
    : ∃ box, next.Balanced bincode box := by
  unfold step at taken
  split at taken
  · cases taken
  · split at taken
    · next panic answers =>
        obtain rfl := Option.some.inj taken
        exact ⟨box, { balanced with panicked := .inr (by rw [answer_panics answers]) }⟩
    · next worker response answers =>
        obtain rfl := Option.some.inj taken
        exact balanced.answered answers short
    · exact balanced.transferred taken

/-- Every state a run reaches is balanced against the mailbox it represents. -/
theorem reached {state : Link}
    (run : Reach (Link.step bincode) (Link.ShortResponse bincode) Link.new state)
    : ∃ box, state.Balanced bincode box := by
  refine run.invariant (fun state => ∃ box, state.Balanced bincode box) ?_ ?_
  · exact ⟨.empty, .new bincode⟩
  · rintro before op after ⟨box, balanced⟩ short taken
    exact balanced.stepped short taken

end Link.Balanced

-----------------------------------------------------------------------------------------
-- The two channels are exact
-----------------------------------------------------------------------------------------

/-- The pairs that came out of a connection are the first pairs that went in, and every
other pair still waits in order: its descriptor in a queue, its message in a queue or as
one frame of the bytes in transit. Each slice decoded so far is one whole message.
-/
theorem server_to_worker_exact (bincode : Bincode) {link : Link}
    (run : Reach (Link.step bincode) (Link.ShortResponse bincode) Link.new link)
    : link.delivered <+: link.requested
      ∧ (∃ inTransit : List Request,
          link.worker.leftover ++ link.socket.toWorker ++ link.server.writeBuffer
            = requestFrames bincode inTransit
          ∧ link.requested.map Request.ofPair
            = link.delivered.map Request.ofPair ++ link.worker.streamMsgs ++ inTransit
              ++ link.server.toSend.map Prod.fst
          ∧ link.requested.map Prod.snd
            = link.delivered.map Prod.snd ++ link.worker.streamFds ++ link.socket.fds
              ++ link.server.toSend.map Prod.snd)
      ∧ link.requestSlices
        = (link.delivered.map Request.ofPair ++ link.worker.streamMsgs).map
            bincode.serializeRequest
      ∧ link.panicked ≠ some .deserializeRequest
      ∧ 0 < link.worker.readRoom := by
  obtain ⟨box, balanced⟩ := Link.Balanced.reached run
  have rep := balanced.represents
  refine ⟨?_, ⟨box.requests, ?_, ?_, ?_⟩, ?_, ?_, rep.workerRoom⟩
  · have front : link.delivered.map Request.ofPair <+: link.requested.map Request.ofPair :=
      ⟨_, balanced.requests.symm⟩
    obtain ⟨first, within, same⟩ := List.prefix_map_iff.mp front
    rwa [List.map_injective_iff.mpr Request.ofPair_injective same]
  · rw [List.append_assoc]
    exact rep.requests.bytes
  · simp [balanced.requests, rep.streamMsgs, rep.toSend]
  · simp [balanced.fds, rep.streamFds, rep.fds, rep.toSend]
  · rw [balanced.slices, rep.streamMsgs]
  · rcases balanced.panicked with calm | panicked
    · simp [calm]
    · simp [panicked]

/-- A connection that hands one pair over, its frame cut after the size byte. -/
theorem server_to_worker_exact_handover
    : ∃ link : Link,
        link.delivered = [(16777216, 7)]
        ∧ link.delivered <+: link.requested
        ∧ 0 < link.worker.readRoom := by
  let calls : List LinkOp :=
    [.reqTcpStreamFd 16777216 7, .serverWrite 1 (.ok 13), .workerRead 0 (.ok 1),
      .nextStreamFd, .workerRead 1 (.ok 12), .nextStreamFd]
  have runs
      : (exec (Link.step .fixint) (Link.ShortResponse .fixint) .new calls).map (·.delivered)
        = some [(16777216, 7)] := by
    decide +kernel
  obtain ⟨link, done, delivered⟩ := Option.map_eq_some_iff.mp runs
  have exact_ := server_to_worker_exact .fixint (Reach.of_exec calls done)
  exact ⟨link, delivered, exact_.1, exact_.2.2.2.2⟩

/-- The server has decoded the first responses that were sent, each once and whole, and
every other response is one frame of the bytes in transit; with none in transit it has
decoded them all. Kept tokens and all others come out in the order they were sent.
-/
theorem worker_to_server_exact (bincode : Bincode) {link : Link}
    (run : Reach (Link.step bincode) (Link.ShortResponse bincode) Link.new link)
    : (∃ inTransit : List Response,
        link.server.leftover ++ link.socket.toServer ++ link.worker.writeBuffer
          = wordPrefixed.stream (inTransit.map bincode.serializeResponse)
        ∧ link.answered = link.decoded ++ inTransit
        ∧ (link.answered.filter (·.kept)).map (·.token)
          = link.keptTks ++ link.server.streamTks.map Prod.fst
            ++ (inTransit.filter (·.kept)).map (·.token)
        ∧ (link.answered.filter (!·.kept)).map (·.token)
          = link.closedTks ++ link.server.streamCloseTks.map Prod.fst
            ++ (inTransit.filter (!·.kept)).map (·.token)
        ∧ (link.socket.toServer = [] → link.worker.writeBuffer = [] → inTransit = []))
      ∧ link.panicked ≠ some .deserializeResponse
      ∧ 512 ≤ link.server.readRoom := by
  obtain ⟨box, balanced⟩ := Link.Balanced.reached run
  have rep := balanced.represents
  refine ⟨⟨box.responses, ?_, balanced.responses, ?_, ?_, rep.responses_nil⟩, ?_,
    rep.serverRoom⟩
  · rw [List.append_assoc]
    exact rep.responses.bytes
  · rw [balanced.responses, List.filter_append, List.map_append, balanced.kept, rep.streamTks]
  · rw [balanced.responses, List.filter_append, List.map_append, balanced.closed,
      rep.streamCloseTks]
  · rcases balanced.panicked with calm | panicked
    · simp [calm]
    · simp [panicked]

/-- One kept and one failed request, answered through a socket that cuts inside the size. -/
theorem worker_to_server_exact_answers
    : ∃ link : Link,
        link.keptTks = [16777216]
        ∧ link.closedTks = [33554432]
        ∧ link.panicked ≠ some .deserializeResponse
        ∧ 512 ≤ link.server.readRoom := by
  let calls : List LinkOp :=
    [.reqTcpStreamFd 16777216 7, .reqTcpStreamFd 33554432 8, .serverWrite 2 (.ok 26),
      .workerRead 2 (.ok 26), .nextStreamFd, .nextStreamFd, .respBadClient 33554432,
      .respStreamDoneOk 16777216 7 true, .workerWrite (.ok 3), .serverRead (.ok 2),
      .workerWrite (.ok 100), .serverRead (.ok 69), .nextStreamTk, .nextStreamCloseTk]
  have runs
      : (exec (Link.step .fixint) (Link.ShortResponse .fixint) .new calls).map
          (fun link => (link.keptTks, link.closedTks))
        = some ([16777216], [33554432]) := by
    decide +kernel
  obtain ⟨link, done, out⟩ := Option.map_eq_some_iff.mp runs
  have exact_ := worker_to_server_exact .fixint (Reach.of_exec calls done)
  exact ⟨link, congrArg Prod.fst out, congrArg Prod.snd out, exact_.2⟩

end Casket
