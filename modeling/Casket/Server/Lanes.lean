import Casket.Msgs.Link
import Casket.Server.UnixStreams
import Mathlib.Data.List.Perm.Basic

/-! The lanes between the server and its workers: a worker socket, the worker's buffer
behind it and the mailbox they represent. Every call on a lane moves the outstanding copies
of its requests from one queue to the next, or takes some of them out.
-/

namespace Casket

open Lib

/-- Reregistering changes at most the interest. -/
theorem UnixStream.reregister_interest (self : UnixStream) (succeeds : Bool)
    (registry : TokenMap Interest)
    : ∃ interest, (self.reregister succeeds registry).1 = { self with interest } := by
  unfold reregister
  split
  · exact ⟨_, rfl⟩
  · split
    · exact ⟨_, rfl⟩
    · exact ⟨self.interest, rfl⟩

namespace Mailbox

/-- The tokens of the copies a connection holds, queue by queue. -/
def outstanding (box : Mailbox) : List Token :=
  box.toSend.map (·.1.token)
  ++ (box.requests.map (·.token)
    ++ (box.streamMsgs.map (·.token)
      ++ (box.serverFds.keys
        ++ (box.responses.map (·.token)
          ++ (box.streamTks.map Prod.fst ++ box.streamCloseTks.map Prod.fst)))))

/-- A call that took `taken` out of a mailbox, lost and doubled nothing, and enqueued no
request.
-/
structure Moves (before after : Mailbox) (taken : List Token) : Prop where
  outstanding : (taken ++ after.outstanding).Perm before.outstanding
  toSend : ∀ entry ∈ after.toSend, entry ∈ before.toSend

namespace Moves

/-- Nothing moves when nothing is done. -/
theorem refl (box : Mailbox) : Moves box box [] := ⟨.rfl, fun _ member => member⟩

/-- Two calls take what each of them takes. -/
theorem trans {before middle after : Mailbox} {first second : List Token}
    (left : Moves before middle first) (right : Moves middle after second)
    : Moves before after (first ++ second) where
  outstanding := by
    rw [List.append_assoc]
    exact (right.outstanding.append_left first).trans left.outstanding
  toSend entry member := left.toSend entry (right.toSend entry member)

/-- What is left is counted by the copies before less those taken. -/
theorem counted {before after : Mailbox} {taken : List Token}
    (moves : Moves before after taken)
    : taken.length + after.outstanding.length = before.outstanding.length := by
  rw [← moves.outstanding.length_eq, List.length_append]

variable {box : Mailbox}

/-- A write moves copies from `to_send` to the wire. -/
theorem sent {sent rest : List (Request × RawFd)} (split : box.toSend = sent ++ rest)
    (fds : List RawFd)
    : Moves box
        { box with toSend := rest, requests := box.requests ++ sent.map Prod.fst, fds }
        [] where
  outstanding := by
    refine List.perm_iff_count.mpr fun tk => ?_
    simp only [Mailbox.outstanding, split, List.nil_append, List.map_append, List.map_map,
      List.count_append, Function.comp_def]
    omega
  toSend entry member := split ▸ List.mem_append_right sent member

/-- A worker's read moves copies from the wire to its decoded requests. -/
theorem received {done left : List Request} (split : box.requests = done ++ left)
    (fds streamFds : List RawFd)
    : Moves box
        { box with requests := left, fds, streamMsgs := box.streamMsgs ++ done, streamFds }
        [] where
  outstanding := by
    refine List.perm_iff_count.mpr fun tk => ?_
    simp only [Mailbox.outstanding, split, List.nil_append, List.map_append, List.count_append]
    omega
  toSend _ member := member

/-- Pairing moves a copy from the decoded requests to the tokens the worker holds. -/
theorem paired {msg : Request} {msgs : List Request} (first : box.streamMsgs = msg :: msgs)
    (fresh : msg.token ∉ box.serverFds) (streamFds : List RawFd)
    : Moves box
        { box with
          streamMsgs := msgs
          streamFds
          serverFds := box.serverFds.insert msg.token msg.fd }
        [] where
  outstanding := by
    have unheld : box.serverFds.keys.erase msg.token = box.serverFds.keys :=
      List.erase_of_not_mem fresh
    refine List.perm_iff_count.mpr fun tk => ?_
    simp only [Mailbox.outstanding, first, AList.keys_insert, unheld, List.nil_append,
      List.map_cons, List.count_append, List.count_cons]
    omega
  toSend _ member := member

/-- An answer moves a copy from the held tokens to the wire back. -/
theorem responded {response : Response} (held : response.token ∈ box.serverFds)
    : Moves box
        { box with
          serverFds := box.serverFds.erase response.token
          responses := box.responses ++ [response] }
        [] where
  outstanding := by
    have holds := List.perm_cons_erase (AList.mem_keys.mp held)
    refine List.perm_iff_count.mpr fun tk => ?_
    have count := holds.count_eq tk
    simp only [List.count_cons] at count
    simp only [Mailbox.outstanding, AList.keys_erase, List.nil_append, List.map_append,
      List.map_cons, List.map_nil, List.count_append, List.count_cons, List.count_nil]
    omega
  toSend _ member := member

/-- A server's read moves copies from the wire back to the two token queues. -/
theorem decoded {done left : List Response} (split : box.responses = done ++ left)
    : Moves box
        { box with
          responses := left
          streamTks :=
            box.streamTks ++ (done.filter (·.kept)).map (fun msg => (msg.token, msg.fd))
          streamCloseTks :=
            box.streamCloseTks
            ++ (done.filter (!·.kept)).map (fun msg => (msg.token, msg.fd)) }
        [] where
  outstanding := by
    have sorted := (List.filter_append_perm (·.kept) done).map (·.token)
    refine List.perm_iff_count.mpr fun tk => ?_
    have count := sorted.count_eq tk
    simp only [List.map_append, List.count_append] at count
    simp only [Mailbox.outstanding, split, List.nil_append, List.map_append, List.map_map,
      List.count_append, Function.comp_def]
    omega
  toSend _ member := member

/-- Popping a kept token takes its copy. -/
theorem kept {tk : Token} {fd : RawFd} {rest : List (Token × RawFd)}
    (first : box.streamTks = (tk, fd) :: rest)
    : Moves box { box with streamTks := rest } [tk] where
  outstanding := by
    refine List.perm_iff_count.mpr fun other => ?_
    simp only [Mailbox.outstanding, first, List.cons_append, List.nil_append, List.map_cons,
      List.count_append, List.count_cons]
    omega
  toSend _ member := member

/-- Popping a token to be closed takes its copy. -/
theorem closed {tk : Token} {fd : RawFd} {rest : List (Token × RawFd)}
    (first : box.streamCloseTks = (tk, fd) :: rest)
    : Moves box { box with streamCloseTks := rest } [tk] where
  outstanding := by
    refine List.perm_iff_count.mpr fun other => ?_
    simp only [Mailbox.outstanding, first, List.cons_append, List.nil_append, List.map_cons,
      List.count_append, List.count_cons]
    omega
  toSend _ member := member

end Moves
end Mailbox

-----------------------------------------------------------------------------------------
-- One worker's lane
-----------------------------------------------------------------------------------------

/-- One worker as the server is connected to it. -/
structure Lane where
  stream : UnixStream
  worker : WorkerMsgBuffer
  box : Mailbox

namespace Lane

/-- A lane represents its mailbox, and `num_reqs` counts the copies in it. -/
structure Sound (bincode : Bincode) (lane : Lane) : Prop where
  represents
    : lane.box.Represents bincode lane.stream.msgBuffer lane.stream.stream lane.worker
  counted : lane.stream.numReqs = lane.box.outstanding.length

variable {bincode : Bincode} {lane : Lane}

/-- Dispatching puts one copy of the token on the lane. -/
theorem Sound.msgSendTcpStream (sound : lane.Sound bincode) (tk : Token) (fd : RawFd)
    : ∃ after : Lane,
        after.stream = lane.stream.msgSendTcpStream tk fd
        ∧ after.worker = lane.worker
        ∧ after.Sound bincode
        ∧ after.box.outstanding.Perm (tk :: lane.box.outstanding)
        ∧ after.box.toSend = lane.box.toSend ++ [(⟨tk, fd⟩, fd)] := by
  let box : Mailbox := { lane.box with toSend := lane.box.toSend ++ [(⟨tk, fd⟩, fd)] }
  have copies : box.outstanding.Perm (tk :: lane.box.outstanding) := by
    simp [box, Mailbox.outstanding]
  refine
    ⟨⟨lane.stream.msgSendTcpStream tk fd, lane.worker, box⟩, rfl, rfl, ⟨?_, ?_⟩, copies, rfl⟩
  · exact sound.represents.reqTcpStreamFd tk fd
  · rw [copies.length_eq, List.length_cons, ← sound.counted]
    rfl

/-- Reregistering changes the interest only. -/
theorem Sound.reregister (sound : lane.Sound bincode) (succeeds : Bool)
    (registry : TokenMap Interest)
    : Sound bincode { lane with stream := (lane.stream.reregister succeeds registry).1 } := by
  obtain ⟨interest, same⟩ := lane.stream.reregister_interest succeeds registry
  rw [same]
  exact ⟨sound.represents, sound.counted⟩

/-- A read never panics, and moves whole responses into the token queues. -/
theorem Sound.readStream (sound : lane.Sound bincode) {read : Except IoError Nat}
    {result : Except Panic UnixStream}
    (reads : lane.stream.readStream bincode read = some result)
    : ∃ after : Lane,
        result = .ok after.stream
        ∧ after.worker = lane.worker
        ∧ after.Sound bincode
        ∧ Mailbox.Moves lane.box after.box [] := by
  obtain ⟨⟨bytes, socket⟩, received, rfl⟩ := Option.map_eq_some_iff.mp reads
  obtain ⟨done, left, next, decoded, split, decodes, -, after⟩ :=
    sound.represents.serverRead received
  have moves := Mailbox.Moves.decoded split
  refine
    ⟨⟨{ lane.stream with stream := socket, msgBuffer := next }, lane.worker, _⟩, ?_, rfl,
      ⟨after, ?_⟩, moves⟩
  · simp only [decodes, Except.map]
  · exact sound.counted.trans (moves.counted.symm.trans (Nat.zero_add _))

/-- A write moves requests and their descriptors to the socket. -/
theorem Sound.writeStream (sound : lane.Sound bincode) (accepted : Nat)
    (write : Except IoError Nat)
    : ∃ after : Lane,
        after.stream = lane.stream.writeStream bincode accepted write
        ∧ after.worker = lane.worker
        ∧ after.Sound bincode
        ∧ Mailbox.Moves lane.box after.box [] := by
  obtain ⟨sent, rest, next, fds, result, split, wrote, after⟩ :=
    sound.represents.serverWrote accepted write
  have moves := Mailbox.Moves.sent split (lane.box.fds ++ sent.map Prod.snd)
  refine
    ⟨⟨lane.stream.writeStream bincode accepted write, lane.worker, _⟩, rfl, rfl, ⟨?_, ?_⟩,
      moves⟩
  · simpa only [UnixStream.writeStream, wrote] using after
  · exact sound.counted.trans (moves.counted.symm.trans (Nat.zero_add _))

/-- `next` pops the copies of a lane one at a time, and does not panic. -/
def Pops (bincode : Bincode)
    (next : UnixStream → Except Panic (Option (Token × UnixStream)))
    : Prop :=
  ∀ lane : Lane, lane.Sound bincode →
    next lane.stream = .ok none
    ∨ ∃ tk, ∃ after : Lane,
        next lane.stream = .ok (some (tk, after.stream))
        ∧ after.worker = lane.worker
        ∧ after.Sound bincode
        ∧ Mailbox.Moves lane.box after.box [tk]

/-- A popped copy was counted, so `num_reqs -= 1` does not underflow. -/
theorem Sound.nextToken (sound : lane.Sound bincode)
    {pop : ServerMsgBuffer → Option (Token × ServerMsgBuffer)} {tk : Token}
    {next : ServerMsgBuffer} {box : Mailbox}
    (popped : pop lane.stream.msgBuffer = some (tk, next))
    (rep : box.Represents bincode next lane.stream.stream lane.worker)
    (moves : Mailbox.Moves lane.box box [tk])
    : ∃ after : Lane,
        lane.stream.nextToken pop = .ok (some (tk, after.stream))
        ∧ after.worker = lane.worker
        ∧ after.Sound bincode
        ∧ Mailbox.Moves lane.box after.box [tk] := by
  have counted : 1 + box.outstanding.length = lane.stream.numReqs :=
    moves.counted.trans sound.counted.symm
  have positive : lane.stream.numReqs ≠ 0 := by
    omega
  refine
    ⟨⟨{ lane.stream with msgBuffer := next, numReqs := lane.stream.numReqs - 1 },
      lane.worker, box⟩, ?_, rfl, ⟨rep, ?_⟩, moves⟩
  · simp only [UnixStream.nextToken, popped, positive, if_false]
  · change lane.stream.numReqs - 1 = box.outstanding.length
    omega

/-- Kept tokens are popped copies. -/
theorem pops_nextStreamTk (bincode : Bincode) : Pops bincode UnixStream.nextStreamTk := by
  intro lane sound
  cases popped : lane.stream.msgBuffer.nextStreamTk with
  | none => exact .inl (by simp only [UnixStream.nextStreamTk, UnixStream.nextToken, popped])
  | some pair =>
      obtain ⟨fd, rest, first, rep⟩ := sound.represents.nextStreamTk popped
      exact .inr ⟨pair.1, sound.nextToken popped rep (.kept first)⟩

/-- Tokens to be closed are popped copies. -/
theorem pops_nextStreamCloseTk (bincode : Bincode)
    : Pops bincode UnixStream.nextStreamCloseTk := by
  intro lane sound
  cases popped : lane.stream.msgBuffer.nextStreamCloseTk with
  | none =>
      exact .inl (by simp only [UnixStream.nextStreamCloseTk, UnixStream.nextToken, popped])
  | some pair =>
      obtain ⟨fd, rest, first, rep⟩ := sound.represents.nextStreamCloseTk popped
      exact .inr ⟨pair.1, sound.nextToken popped rep (.closed first)⟩

/-- Draining takes exactly the tokens it returns. Witness: induction on the fuel. -/
theorem Pops.drain {next : UnixStream → Except Panic (Option (Token × UnixStream))}
    (pops : Pops bincode next) (fuel : Nat) {lane : Lane} (sound : lane.Sound bincode)
    : ∃ tks, ∃ after : Lane,
        lane.stream.drain next fuel = .ok (tks, after.stream)
        ∧ after.worker = lane.worker
        ∧ after.Sound bincode
        ∧ Mailbox.Moves lane.box after.box tks := by
  induction fuel generalizing lane with
  | zero => exact ⟨[], lane, rfl, rfl, sound, .refl _⟩
  | succ fuel ih =>
      rcases pops lane sound with empty | ⟨tk, middle, popped, same, between, moves⟩
      · exact ⟨[], lane, by simp only [UnixStream.drain, empty], rfl, sound, .refl _⟩
      · obtain ⟨tks, after, drained, worker, sound, more⟩ := ih between
        refine ⟨tk :: tks, after, ?_, worker.trans same, sound, moves.trans more⟩
        simp only [UnixStream.drain, popped, drained]

end Lane

-----------------------------------------------------------------------------------------
-- The worker's calls on one lane
-----------------------------------------------------------------------------------------

/-- The calls made by the worker's end of a link. -/
def LinkOp.byWorker : LinkOp → Bool
  | .workerRead .. | .workerWrite .. | .nextStreamFd => true
  | .respIoError .. | .respBadClient .. | .respStreamRegError .. => true
  | .respStreamDoneOk .. => true
  | _ => false

/-- The link of a worker socket, its ledger empty. -/
def UnixStream.link (self : UnixStream) (worker : WorkerMsgBuffer) : Link :=
  { Link.new with server := self.msgBuffer, socket := self.stream, worker }

namespace Lane

variable {bincode : Bincode} {lane : Lane}

/-- A lane after a worker's call that moved its mailbox. -/
theorem Sound.moved (sound : lane.Sound bincode) {socket : UnixSocket}
    {worker : WorkerMsgBuffer} {box : Mailbox}
    (rep : box.Represents bincode lane.stream.msgBuffer socket worker)
    (moves : Mailbox.Moves lane.box box [])
    : ∃ after : Lane,
        after.stream = { lane.stream with stream := socket }
        ∧ after.worker = worker
        ∧ after.Sound bincode
        ∧ Mailbox.Moves lane.box after.box [] := by
  refine
    ⟨⟨{ lane.stream with stream := socket }, worker, box⟩, rfl, rfl, ⟨rep, ?_⟩, moves⟩
  exact sound.counted.trans (moves.counted.symm.trans (Nat.zero_add _))

/-- A paired request was not held yet: its copy waits among the decoded requests. -/
theorem unheld (distinct : lane.box.outstanding.Nodup) {msg : Request} {msgs : List Request}
    (first : lane.box.streamMsgs = msg :: msgs)
    : msg.token ∉ lane.box.serverFds := by
  intro held
  have twice : 2 ≤ lane.box.outstanding.count msg.token := by
    have count := List.count_pos_iff.mpr (AList.mem_keys.mp held)
    simp only [Mailbox.outstanding, first, List.map_cons, List.count_append,
      List.count_cons_self]
    omega
  exact absurd (List.nodup_iff_count_le_one.mp distinct msg.token) (by omega)

/-- A worker's call moves whole messages of the mailbox it is made on, or pairs one. Witness:
one case for each call, by its lemma on the represented mailbox.
-/
theorem workerCalled {stream : UnixStream} {worker : WorkerMsgBuffer} {box : Mailbox}
    (rep : box.Represents bincode stream.msgBuffer stream.stream worker) {op : LinkOp}
    (side : op.byWorker) (short : (stream.link worker).ShortResponse bincode op)
    {link : Link} (called : (stream.link worker).step bincode op = some link)
    (calm : link.panicked = none)
    : ∃ after : Mailbox,
        after.Represents bincode stream.msgBuffer link.socket link.worker
        ∧ (Mailbox.Moves box after []
          ∨ ∃ msg msgs streamFds,
              box.streamMsgs = msg :: msgs
              ∧ after
                = { box with
                    streamMsgs := msgs
                    streamFds
                    serverFds := box.serverFds.insert msg.token msg.fd }) := by
  have fresh : (stream.link worker).panicked.isSome = false := rfl
  simp only [Link.step, fresh, Bool.false_eq_true, if_false] at called
  split at called
  · obtain rfl := Option.some.inj called
    cases calm
  · next next response answers =>
      obtain rfl := Option.some.inj called
      obtain ⟨tk, keepAlive, error, done⟩ := Link.Balanced.answer_respond answers
      obtain ⟨held, rfl, after⟩ := rep.responded done (short _ answers _ rfl)
      exact ⟨_, after, .inl (.responded held)⟩
  · cases op with
    | workerRead ready read =>
        obtain ⟨⟨result, dequeued, socket⟩, reads, rfl⟩ := Option.map_eq_some_iff.mp called
        obtain ⟨done, left, later, next, slices, split, queue, decoded, -, after⟩ :=
          rep.workerRead reads
        have decoded' : (stream.link worker).worker.readUnixStream bincode result dequeued
            = .ok (next, slices) := decoded
        simp only [decoded']
        exact ⟨_, after, .inl (.received split later _)⟩
    | workerWrite write =>
        obtain ⟨next, result, wrote, after⟩ := rep.workerWrote write
        have wrote' : (stream.link worker).worker.writeUnixStream write
            = (next, result) := wrote
        simp only [Link.transfer, wrote'] at called
        obtain rfl := Option.some.inj called
        exact ⟨_, after, .inl (.refl _)⟩
    | nextStreamFd =>
        simp only [Link.transfer] at called
        split at called
        · obtain rfl := Option.some.inj called
          exact ⟨_, rep, .inl (.refl _)⟩
        · next pair next paired =>
            obtain ⟨tk, fd⟩ := pair
            obtain rfl := Option.some.inj called
            obtain ⟨msg, msgs, fds, first, front, rfl, after⟩ := rep.nextStreamFd paired
            exact ⟨_, after, .inr ⟨msg, msgs, fds, first, rfl⟩⟩
    | respIoError | respBadClient | respStreamRegError | respStreamDoneOk => cases called
    | reqTcpStreamFd | serverWrite | serverRead | nextStreamTk | nextStreamCloseTk =>
        cases side

/-- A worker's call moves copies inside its lane, where these are distinct. -/
theorem Sound.workerCalled (sound : lane.Sound bincode)
    (distinct : lane.box.outstanding.Nodup) {op : LinkOp} (side : op.byWorker)
    (short : (lane.stream.link lane.worker).ShortResponse bincode op) {link : Link}
    (called : (lane.stream.link lane.worker).step bincode op = some link)
    (calm : link.panicked = none)
    : ∃ after : Lane,
        after.stream = { lane.stream with stream := link.socket }
        ∧ after.worker = link.worker
        ∧ after.Sound bincode
        ∧ Mailbox.Moves lane.box after.box [] := by
  obtain ⟨box, after, moves | ⟨msg, msgs, fds, first, rfl⟩⟩ :=
    Lane.workerCalled sound.represents side short called calm
  · exact sound.moved after moves
  · exact sound.moved after (.paired first (unheld distinct first) fds)

end Lane

-----------------------------------------------------------------------------------------
-- All lanes
-----------------------------------------------------------------------------------------

/-- The lanes are those of these sockets and workers, and all are sound. -/
structure Connected (bincode : Bincode) (streams : List UnixStream)
    (workers : List WorkerMsgBuffer) (lanes : List Lane)
    : Prop where
  streams : lanes.map (·.stream) = streams
  workers : lanes.map (·.worker) = workers
  sound : ∀ lane ∈ lanes, lane.Sound bincode

namespace Lane

/-- The tokens of all copies on the lanes. -/
def outstanding (lanes : List Lane) : List Token := lanes.flatMap (·.box.outstanding)

/-- The requests the sockets have not taken, with their descriptors. -/
def toSend (lanes : List Lane) : List (Request × RawFd) := lanes.flatMap (·.box.toSend)

/-- What a call takes out of all the lanes. -/
structure Moves (before after : List Lane) (taken : List Token) : Prop where
  outstanding : (taken ++ outstanding after).Perm (outstanding before)
  toSend : ∀ entry ∈ toSend after, entry ∈ toSend before

theorem Moves.refl (lanes : List Lane) : Moves lanes lanes [] :=
  ⟨.rfl, fun _ member => member⟩

/-- Two calls take what each of them takes. -/
theorem Moves.trans {before middle after : List Lane} {first second : List Token}
    (left : Moves before middle first) (right : Moves middle after second)
    : Moves before after (first ++ second) where
  outstanding := by
    rw [List.append_assoc]
    exact (right.outstanding.append_left first).trans left.outstanding
  toSend entry member := left.toSend entry (right.toSend entry member)

/-- What happens to the first lane and to the others happens to all. -/
theorem Moves.cons {before after : Lane} {rest others : List Lane}
    {first more : List Token} (head : Mailbox.Moves before.box after.box first)
    (tail : Moves rest others more)
    : Moves (before :: rest) (after :: others) (first ++ more) where
  outstanding := by
    have left := head.outstanding
    have right := tail.outstanding
    refine List.perm_iff_count.mpr fun tk => ?_
    have count := left.count_eq tk
    have counts := right.count_eq tk
    simp only [Lane.outstanding, List.flatMap_cons, List.count_append] at *
    omega
  toSend entry member := by
    rcases List.mem_append.mp member with here | there
    · exact List.mem_append_left _ (head.toSend entry here)
    · exact List.mem_append_right _ (tail.toSend entry there)

/-- What happens to one lane, the others staying as they are. -/
theorem Moves.set {lanes : List Lane} {n : Nat} {lane after : Lane} {taken : List Token}
    (at_ : lanes[n]? = some lane) (moves : Mailbox.Moves lane.box after.box taken)
    : Moves lanes (lanes.set n after) taken := by
  induction lanes generalizing n with
  | nil => cases at_
  | cons first rest ih =>
      cases n with
      | zero =>
          obtain rfl := Option.some.inj at_
          simpa only [List.append_nil, List.set_cons_zero] using Moves.cons moves (.refl rest)
      | succ n => exact Moves.cons (.refl first.box) (ih at_)

/-- One more copy on one lane. -/
theorem dispatched {lanes : List Lane} {n : Nat} {lane after : Lane} {tk : Token}
    (at_ : lanes[n]? = some lane)
    (copies : after.box.outstanding.Perm (tk :: lane.box.outstanding))
    : (outstanding (lanes.set n after)).Perm (tk :: outstanding lanes) := by
  induction lanes generalizing n with
  | nil => cases at_
  | cons first rest ih =>
      cases n with
      | zero =>
          obtain rfl := Option.some.inj at_
          exact copies.append_right (outstanding rest)
      | succ n =>
          exact ((ih at_).append_left first.box.outstanding).trans List.perm_middle

/-- A request waiting after one lane changed waits there or waited before. -/
theorem toSend_set {lanes : List Lane} {n : Nat} {after : Lane} {entry : Request × RawFd}
    (member : entry ∈ toSend (lanes.set n after))
    : entry ∈ after.box.toSend ∨ entry ∈ toSend lanes := by
  obtain ⟨lane, among, waits⟩ := List.mem_flatMap.mp member
  rcases List.mem_or_eq_of_mem_set among with before | rfl
  · exact .inr (List.mem_flatMap.mpr ⟨lane, before, waits⟩)
  · exact .inl waits

end Lane

namespace Connected

variable {bincode : Bincode} {streams : List UnixStream} {workers : List WorkerMsgBuffer}
  {lanes : List Lane}

/-- The lane of one socket. -/
theorem lane_at (connected : Connected bincode streams workers lanes) {n : Nat}
    {stream : UnixStream} (found : streams[n]? = some stream)
    : ∃ lane,
        lanes[n]? = some lane
        ∧ lane.stream = stream
        ∧ workers[n]? = some lane.worker
        ∧ lane.Sound bincode := by
  obtain ⟨rfl, rfl, sound⟩ := connected
  rw [List.getElem?_map, Option.map_eq_some_iff] at found
  obtain ⟨lane, at_, rfl⟩ := found
  exact ⟨lane, at_, rfl, by rw [List.getElem?_map, at_]; rfl,
    sound lane (List.mem_of_getElem? at_)⟩

/-- One lane replaced by a sound one. -/
theorem set (connected : Connected bincode streams workers lanes) (n : Nat) {after : Lane}
    (sound : after.Sound bincode)
    : Connected bincode (streams.set n after.stream) (workers.set n after.worker)
        (lanes.set n after) where
  streams := by
    rw [List.map_set, connected.streams]
  workers := by
    rw [List.map_set, connected.workers]
  sound lane among := by
    rcases List.mem_or_eq_of_mem_set among with before | rfl
    · exact connected.sound lane before
    · exact sound

/-- One socket replaced, its worker staying as it is. -/
theorem setStream (connected : Connected bincode streams workers lanes) {n : Nat}
    {lane after : Lane} (behind : workers[n]? = some lane.worker)
    (same : after.worker = lane.worker) (sound : after.Sound bincode)
    : Connected bincode (streams.set n after.stream) workers (lanes.set n after) := by
  have replaced := connected.set n sound
  obtain ⟨within, there⟩ := List.getElem?_eq_some_iff.mp behind
  rwa [same, ← there, List.set_getElem_self] at replaced

/-- Draining every socket takes the tokens it returns. Witness: induction on the lanes. -/
theorem drainAll (connected : Connected bincode streams workers lanes)
    {next : UnixStream → Except Panic (Option (Token × UnixStream))}
    (pops : Lane.Pops bincode next) (waiting : UnixStream → Nat)
    : ∃ tks after lanes',
        UnixStreams.drainAll next waiting streams = .ok (tks, after)
        ∧ Connected bincode after workers lanes'
        ∧ Lane.Moves lanes lanes' tks := by
  obtain ⟨rfl, rfl, sound⟩ := connected
  induction lanes with
  | nil => exact ⟨[], [], [], rfl, ⟨rfl, rfl, sound⟩, .refl _⟩
  | cons lane rest ih =>
      obtain ⟨tks, first, drained, same, kept, moves⟩ :=
        pops.drain (waiting lane.stream) (sound lane List.mem_cons_self)
      obtain ⟨more, after, others, done, connected, moved⟩ :=
        ih fun lane among => sound lane (List.mem_cons_of_mem _ among)
      refine ⟨tks ++ more, first.stream :: after, first :: others, ?_, ⟨?_, ?_, ?_⟩,
        .cons moves moved⟩
      · simp only [List.map_cons, UnixStreams.drainAll, drained, done]
      · rw [List.map_cons, connected.streams]
      · rw [List.map_cons, List.map_cons, connected.workers, same]
      · intro lane among
        rcases List.mem_cons.mp among with rfl | later
        · exact kept
        · exact connected.sound lane later

/-- Reregistering every socket moves nothing. Witness: induction on the lanes. -/
theorem reregister (connected : Connected bincode streams workers lanes)
    (succeeds : Token → Bool) (registry : TokenMap Interest)
    : ∃ lanes',
        Connected bincode (UnixStreams.reregister succeeds streams registry).1 workers
          lanes'
        ∧ Lane.Moves lanes lanes' [] := by
  obtain ⟨rfl, rfl, sound⟩ := connected
  induction lanes generalizing registry with
  | nil => exact ⟨[], ⟨rfl, rfl, sound⟩, .refl _⟩
  | cons lane rest ih =>
      let first : Lane :=
        { lane with
          stream := (lane.stream.reregister (succeeds lane.stream.token) registry).1 }
      have kept : first.Sound bincode :=
        (sound lane List.mem_cons_self).reregister (succeeds lane.stream.token) registry
      obtain ⟨others, connected, moved⟩ :=
        ih (lane.stream.reregister (succeeds lane.stream.token) registry).2
          fun lane among => sound lane (List.mem_cons_of_mem _ among)
      have still : Mailbox.Moves lane.box first.box [] := .refl lane.box
      refine ⟨first :: others, ⟨?_, ?_, ?_⟩, .cons still moved⟩
      · rw [List.map_cons, connected.streams]
        rfl
      · rw [List.map_cons, List.map_cons, connected.workers]
      · intro lane among
        rcases List.mem_cons.mp among with rfl | later
        · exact kept
        · exact connected.sound lane later

end Connected
end Casket
