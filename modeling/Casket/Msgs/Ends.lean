import Casket.Lib.Simulation
import Casket.Server.Lanes

/-! The two ends of a connection one at a time: what the calls of one end leave alone, and
that no call reads the ledger.
-/

namespace Casket

open Lib

/-- The pair a call asks the worker to take. -/
def LinkOp.asked : LinkOp → List (Token × RawFd)
  | .reqTcpStreamFd tk fd => [(tk, fd)]
  | _ => []

namespace Link

variable {bincode : Bincode} {link next other : Link} {op : LinkOp}

/-- A run of calls by one end. -/
def Calls (bincode : Bincode) (byWorker : Bool) (link next : Link) : Prop :=
  Reach (Link.step bincode)
    (fun link op => op.byWorker = byWorker ∧ link.ShortResponse bincode op) link next

-----------------------------------------------------------------------------------------
-- One call
-----------------------------------------------------------------------------------------

/-- A link that has panicked takes no call. -/
theorem step_calm (taken : link.step bincode op = some next) : link.panicked = none := by
  unfold step at taken
  split at taken
  · cases taken
  · next calm => simpa using calm

/-- A call that is no answer is made on a link that has not panicked. -/
theorem step_transfer (calm : link.panicked = none) (answers : link.answer bincode op = none)
    : link.step bincode op = link.transfer bincode op := by
  simp only [step, calm, Option.isSome_none, Bool.false_eq_true, if_false, answers]

/-- The worker's calls leave the server's buffer and the requests alone. -/
theorem step_byWorker (taken : link.step bincode op = some next) (side : op.byWorker = true)
    : next.server = link.server ∧ next.requested = link.requested := by
  unfold step at taken
  split at taken
  · cases taken
  · split at taken
    · exact Option.some.inj taken ▸ ⟨rfl, rfl⟩
    · exact Option.some.inj taken ▸ ⟨rfl, rfl⟩
    · cases op with
      | workerRead ready read =>
          obtain ⟨⟨result, dequeued, socket⟩, -, rfl⟩ := Option.map_eq_some_iff.mp taken
          dsimp only
          split <;> exact ⟨rfl, rfl⟩
      | workerWrite write => exact Option.some.inj taken ▸ ⟨rfl, rfl⟩
      | nextStreamFd =>
          simp only [transfer] at taken
          split at taken <;> exact Option.some.inj taken ▸ ⟨rfl, rfl⟩
      | respIoError | respBadClient | respStreamRegError | respStreamDoneOk => cases taken
      | reqTcpStreamFd | serverWrite | serverRead | nextStreamTk | nextStreamCloseTk =>
          cases side

/-- The server's calls leave the worker's buffer and what came out at its end alone, and only
`req_tcp_stream_fd` asks for something.
-/
theorem step_byServer (taken : link.step bincode op = some next) (side : op.byWorker = false)
    : next.worker = link.worker
      ∧ next.delivered = link.delivered
      ∧ next.requested = link.requested ++ op.asked := by
  unfold step at taken
  split at taken
  · cases taken
  · cases op with
    | reqTcpStreamFd tk fd => exact Option.some.inj taken ▸ ⟨rfl, rfl, rfl⟩
    | serverWrite accepted write =>
        exact Option.some.inj taken ▸ ⟨rfl, rfl, (List.append_nil _).symm⟩
    | serverRead read =>
        obtain ⟨⟨result, socket⟩, -, rfl⟩ := Option.map_eq_some_iff.mp taken
        dsimp only
        split <;> exact ⟨rfl, rfl, (List.append_nil _).symm⟩
    | nextStreamTk =>
        simp only [answer, transfer] at taken
        split at taken <;> exact Option.some.inj taken ▸ ⟨rfl, rfl, (List.append_nil _).symm⟩
    | nextStreamCloseTk =>
        simp only [answer, transfer] at taken
        split at taken <;> exact Option.some.inj taken ▸ ⟨rfl, rfl, (List.append_nil _).symm⟩
    | workerRead | workerWrite | nextStreamFd => cases side
    | respIoError | respBadClient | respStreamRegError | respStreamDoneOk => cases side

/-- A call that gives no answer sends no response. -/
theorem short_silent (silent : link.answer bincode op = none) : link.ShortResponse bincode op := by
  intro answered there
  rw [silent] at there
  cases there

/-- The server answers nothing, so its calls keep the promise on responses. -/
theorem short_byServer (side : op.byWorker = false) : link.ShortResponse bincode op := by
  cases op with
  | reqTcpStreamFd | serverWrite | serverRead | nextStreamTk | nextStreamCloseTk => exact nofun
  | workerRead | workerWrite | nextStreamFd => cases side
  | respIoError | respBadClient | respStreamRegError | respStreamDoneOk => cases side

-----------------------------------------------------------------------------------------
-- Calls do not read the ledger
-----------------------------------------------------------------------------------------

/-- Two links that may differ in their ledgers only. -/
structure Alike (link other : Link) : Prop where
  server : other.server = link.server
  socket : other.socket = link.socket
  worker : other.worker = link.worker
  panicked : other.panicked = link.panicked

/-- The promise on responses reads the worker's buffer only. -/
theorem Alike.short (alike : link.Alike other) (short : link.ShortResponse bincode op)
    : other.ShortResponse bincode op := by
  have same : other.answer bincode op = link.answer bincode op := by
    cases op <;> simp only [answer, alike.worker]
  intro told answers
  rw [same] at answers
  exact short told answers

/-- Alike links take the same calls, and stay alike. Witness: one case for each call. -/
theorem Alike.stepped (alike : link.Alike other)
    (taken : link.step bincode op = some next)
    : ∃ following, other.step bincode op = some following ∧ next.Alike following := by
  obtain ⟨server, socket, worker, _, _, _, _, _, _, _, panicked⟩ := link
  obtain ⟨_, _, _, requested, delivered, slices, answered, decoded, kept, closed, _⟩ := other
  obtain ⟨sameServer, sameSocket, sameWorker, samePanicked⟩ := alike
  dsimp only at sameServer sameSocket sameWorker samePanicked
  subst sameServer sameSocket sameWorker samePanicked
  unfold step at taken ⊢
  dsimp only at taken ⊢
  split at taken
  · cases taken
  · next calm =>
      rw [if_neg calm]
      cases op with
      | reqTcpStreamFd | serverWrite | workerWrite =>
          exact ⟨_, rfl, Option.some.inj taken ▸ ⟨rfl, rfl, rfl, rfl⟩⟩
      | serverRead | workerRead =>
          simp only [answer, transfer] at taken ⊢
          obtain ⟨out, reads, rfl⟩ := Option.map_eq_some_iff.mp taken
          rw [reads]
          refine ⟨_, rfl, ?_⟩
          dsimp only
          split <;> exact ⟨rfl, rfl, rfl, rfl⟩
      | nextStreamTk | nextStreamCloseTk | nextStreamFd =>
          simp only [answer, transfer] at taken ⊢
          split at taken <;> exact ⟨_, rfl, Option.some.inj taken ▸ ⟨rfl, rfl, rfl, rfl⟩⟩
      | respIoError | respBadClient | respStreamRegError | respStreamDoneOk =>
          simp only [answer] at taken ⊢
          split at taken
          · exact ⟨_, rfl, Option.some.inj taken ▸ ⟨rfl, rfl, rfl, rfl⟩⟩
          · exact ⟨_, rfl, Option.some.inj taken ▸ ⟨rfl, rfl, rfl, rfl⟩⟩
          · cases taken

-----------------------------------------------------------------------------------------
-- Runs of calls
-----------------------------------------------------------------------------------------

/-- A run of one call. -/
theorem Calls.one {byWorker : Bool} (side : op.byWorker = byWorker)
    (short : link.ShortResponse bincode op) (taken : link.step bincode op = some next)
    : link.Calls bincode byWorker next :=
  Reach.start.next ⟨side, short⟩ taken

/-- A run of calls that has not panicked never had. -/
theorem Calls.calm {byWorker : Bool} (calls : link.Calls bincode byWorker next)
    (calm : next.panicked = none)
    : link.panicked = none :=
  Reach.earlier (fun link => link.panicked = none) (fun taken _ => step_calm taken) calls calm

/-- What the worker's end leaves alone. -/
theorem Calls.byWorker (calls : link.Calls bincode true next)
    : next.server = link.server ∧ next.requested = link.requested := by
  have kept := Reach.unchanged (fun link : Link => (link.server, link.requested))
    (fun allowed taken => by
      obtain ⟨server, requested⟩ := step_byWorker taken allowed.1
      rw [server, requested]) calls
  exact Prod.mk.inj kept

/-- What the server's end leaves alone. -/
theorem Calls.byServer (calls : link.Calls bincode false next)
    : next.worker = link.worker ∧ next.delivered = link.delivered := by
  have kept := Reach.unchanged (fun link : Link => (link.worker, link.delivered))
    (fun allowed taken => by
      obtain ⟨worker, delivered, -⟩ := step_byServer taken allowed.1
      rw [worker, delivered]) calls
  exact Prod.mk.inj kept

/-- Calls by one end go on a run of both ends. -/
theorem Calls.extends {byWorker : Bool} {start : Link}
    (run : Reach (Link.step bincode) (Link.ShortResponse bincode) start link)
    (calls : link.Calls bincode byWorker next)
    : Reach (Link.step bincode) (Link.ShortResponse bincode) start next :=
  run.trans (calls.weaken fun allowed => allowed.2)

end Link
end Casket
