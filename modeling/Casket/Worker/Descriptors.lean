import Casket.Worker.Custody
import Casket.Worker.ReaderRuns

/-! The descriptors open in a worker. Dropping a stream closes its descriptor; a stream that
goes through `into_raw_fd` leaves its descriptor open with no owner.
-/

namespace Casket

open Lib WorkerEffect

namespace WorkerEffect

/-- The stream whose descriptor an effect closes, and the one whose it releases. -/
@[simp]
def closes : WorkerEffect → Multiset (Token × TcpStream)
  | .closed tk tcpStream => {(tk, tcpStream)}
  | _ => 0

@[simp]
def releases : WorkerEffect → Multiset (Token × TcpStream)
  | .released tk tcpStream => {(tk, tcpStream)}
  | _ => 0

/-- The open descriptors after an effect; there are none when one is closed that is not
open.
-/
def openAfter (fds : Multiset RawFd) : WorkerEffect → Option (Multiset RawFd)
  | .dequeued more => some (fds + more)
  | .closed _ tcpStream => if tcpStream.fd ∈ fds then some (fds.erase tcpStream.fd) else none
  | .replaced _ tcpStream =>
      if tcpStream.fd ∈ fds then some (fds.erase tcpStream.fd) else none
  | _ => some fds

/-- The descriptors a whole trace leaves open, if none was closed twice. -/
def openFds (trace : List WorkerEffect) : Option (Multiset RawFd) := trace.foldlM openAfter 0

/-- A longer trace goes on with the open descriptors. -/
theorem openFds_append {trace effects : List WorkerEffect} {fds : Multiset RawFd}
    (before : openFds trace = some fds)
    : openFds (trace ++ effects) = effects.foldlM openAfter fds := by
  rw [openFds, List.foldlM_append]
  exact congrArg (· >>= fun fds => effects.foldlM openAfter fds) before

/-- Neutral effects and new streams leave the descriptors as they are. -/
theorem foldlM_openAfter {effects : List WorkerEffect} {fds : Multiset RawFd}
    (unmoved : ∀ effect ∈ effects, openAfter fds effect = some fds)
    : effects.foldlM openAfter fds = some fds := by
  induction effects with
  | nil => rfl
  | cons effect rest ih =>
      rw [List.foldlM_cons, unmoved effect List.mem_cons_self]
      exact ih fun other member => unmoved other (List.mem_cons_of_mem _ member)

theorem openAfter_neutral {effect : WorkerEffect} (neutral : effect.neutral = true)
    (fds : Multiset RawFd)
    : openAfter fds effect = some fds := by
  cases effect <;> first | rfl | cases neutral

end WorkerEffect

namespace WorkerLoop

/-- The descriptors of some streams. -/
def fdsOf (streams : Multiset (Token × TcpStream)) : Multiset RawFd := streams.map (·.2.fd)

/-- What is open is waiting, owned by a stream, or was released; and the streams that left
with an answer are the closed and the released ones.
-/
structure Opens (state : WorkerLoop) : Prop where
  fds
    : openFds state.trace
      = some
          (state.worker.msgBuf.streamFds + fdsOf state.holdings
            + fdsOf (total releases state.trace))
  left : total left state.trace = total closes state.trace + total releases state.trace

variable {cfg : Config} {crates : Crates} {bincode : Bincode} {self after : WorkerLoop}
  {input : WorkerInput}

/-- Effects carry the open descriptors on, and tell how streams left. -/
theorem Opens.grow {effects : List WorkerEffect} (opens : self.Opens)
    (trace : after.trace = self.trace ++ effects)
    (fds
      : effects.foldlM openAfter
          (self.worker.msgBuf.streamFds + fdsOf self.holdings
            + fdsOf (total releases self.trace))
        = some
            (after.worker.msgBuf.streamFds + fdsOf after.holdings
              + fdsOf (total releases self.trace + total releases effects)))
    (left : total WorkerEffect.left effects = total closes effects + total releases effects)
    : after.Opens where
  fds := by
    rw [trace, openFds_append opens.fds, fds, total_append]
  left := by
    rw [trace, total_append, total_append, total_append, opens.left, left]
    abel

/-- A descriptor that is open closes. -/
theorem openAfter_closed {tk : Token} {tcpStream : TcpStream} {effect : WorkerEffect}
    (closes : effect = .closed tk tcpStream ∨ effect = .replaced tk tcpStream)
    (fds : Multiset RawFd)
    : openAfter ({tcpStream.fd} + fds) effect = some fds := by
  have there : tcpStream.fd ∈ {tcpStream.fd} + fds :=
    Multiset.mem_add.mpr (.inl (Multiset.mem_singleton_self _))
  have erased : ({tcpStream.fd} + fds).erase tcpStream.fd = fds := by
    rw [Multiset.singleton_add, Multiset.erase_cons_head]
  rcases closes with rfl | rfl
  · rw [openAfter, if_pos there, erased]
  · rw [openAfter, if_pos there, erased]

theorem total_neutral {share : WorkerEffect → Multiset (Token × TcpStream)}
    {effects : List WorkerEffect}
    (zero : ∀ {effect : WorkerEffect}, effect.neutral = true → share effect = 0)
    (neutral : ∀ effect ∈ effects, effect.neutral = true)
    : total share effects = 0 :=
  total_eq_zero fun effect member => zero (neutral effect member)

theorem closes_neutral {effect : WorkerEffect} (neutral : effect.neutral = true)
    : effect.closes = 0 := by
  cases effect <;> first | rfl | cases neutral

theorem releases_neutral {effect : WorkerEffect} (neutral : effect.neutral = true)
    : effect.releases = 0 := by
  cases effect <;> first | rfl | cases neutral

/-- An answer by itself touches no descriptor. -/
theorem foldlM_answered (fds : Multiset RawFd) (ending : Ending) (response : Response)
    (gone : WorkerEffect)
    : [.answered ending response, gone].foldlM openAfter fds = openAfter fds gone := by
  cases gone <;> simp [openAfter]

/-- Each way of moving streams opens and closes exactly what it moves. -/
theorem Shifts.opens (shifts : self.Shifts bincode after) (opens : self.Opens)
    : after.Opens := by
  cases shifts with
  | within effects trace neutral holdings msgBuf =>
      have closes := total_neutral closes_neutral neutral
      have releases := total_neutral releases_neutral neutral
      have left := total_neutral (fun is => (neutral_shares is).2.2.1) neutral
      refine opens.grow trace ?_ ?_
      · rw [foldlM_openAfter fun effect member => openAfter_neutral (neutral effect member) _,
          msgBuf.streamFds, holdings, releases, add_zero]
      · rw [closes, releases, left]
        rfl
  | dequeued more trace holdings _ streamFds =>
      refine opens.grow trace ?_ rfl
      rw [List.foldlM_cons, openAfter, streamFds, holdings, ← Multiset.coe_add]
      refine congrArg some ?_
      simp only [total_cons, total_nil, WorkerEffect.releases, add_zero]
      abel
  | handed some trace holdings _ streamFds =>
      refine opens.grow trace ?_ rfl
      rw [streamFds, holdings]
      simp only [total_cons, total_nil, WorkerEffect.releases, add_zero]
      rfl
  | received streams trace holdings _ streamFds =>
      have releases : total releases (streams.map streamReceived) = 0 :=
        total_map_none WorkerEffect.releases _ (fun _ => rfl) streams
      have closes : total closes (streams.map streamReceived) = 0 :=
        total_map_none WorkerEffect.closes _ (fun _ => rfl) streams
      have left : total left (streams.map streamReceived) = 0 :=
        total_map_none WorkerEffect.left _ (fun _ => rfl) streams
      refine opens.grow trace ?_ ?_
      · rw [foldlM_openAfter (List.forall_mem_map.mpr fun _ _ => rfl), streamFds, holdings,
          releases, ← Multiset.coe_add, fdsOf, fdsOf, fdsOf, fdsOf, Multiset.map_add,
          Multiset.map_coe, List.map_map, add_zero]
        refine congrArg some ?_
        have same : streams.map ((fun stream => stream.2.fd) ∘ owned) = streams.map Prod.snd :=
          rfl
        rw [same]
        abel
      · rw [left, closes, releases]
        rfl
  | answered tk tcpStream lines ending response gone trace neutral gives _ holdings _ _
      streamFds =>
      have closes := total_neutral closes_neutral neutral
      have releases := total_neutral releases_neutral neutral
      have left := total_neutral (fun is => (neutral_shares is).2.2.1) neutral
      have split : (self.worker.msgBuf.streamFds : Multiset RawFd) + fdsOf self.holdings
            + fdsOf (total WorkerEffect.releases self.trace)
          = {tcpStream.fd} + (after.worker.msgBuf.streamFds + fdsOf after.holdings
            + fdsOf (total WorkerEffect.releases self.trace)) := by
        rw [holdings, streamFds, fdsOf, Multiset.map_add, Multiset.map_singleton, ← fdsOf]
        abel
      refine opens.grow trace ?_ ?_
      · rw [List.foldlM_append,
          foldlM_openAfter fun effect member => openAfter_neutral (neutral effect member) _]
        rw [Option.bind_eq_bind, Option.bind_some, foldlM_answered, split, total_append,
          releases, zero_add]
        rcases gives with rfl | rfl
        · rw [openAfter_closed (.inl rfl)]
          simp
        · refine congrArg some ?_
          simp only [fdsOf, Multiset.map_add, total_cons, total_nil, WorkerEffect.releases,
            Multiset.map_singleton, add_zero, zero_add]
          abel
      · rw [total_append, total_append, total_append, closes, releases, left]
        rcases gives with rfl | rfl <;> rfl
  | replaced tk tcpStream trace holdings _ msgBuf =>
      refine opens.grow trace ?_ rfl
      have split : (self.worker.msgBuf.streamFds : Multiset RawFd) + fdsOf self.holdings
            + fdsOf (total releases self.trace)
          = {tcpStream.fd} + (after.worker.msgBuf.streamFds + fdsOf after.holdings
            + fdsOf (total releases self.trace)) := by
        rw [holdings, msgBuf.streamFds, fdsOf, Multiset.map_add, Multiset.map_singleton,
          ← fdsOf]
        abel
      rw [split, List.foldlM_cons, openAfter_closed (.inr rfl)]
      simp only [total_cons, total_nil, WorkerEffect.releases, add_zero]
      rfl

theorem opens_new (cfg : Config) : (WorkerLoop.new cfg).Opens := ⟨rfl, rfl⟩

/-- The open descriptors are accounted for in every run whose loop has not ended. -/
theorem opens_reach {guard : WorkerLoop → WorkerInput → Prop} {state : WorkerLoop}
    (run : Reach (step cfg crates bincode) guard (.new cfg) state)
    (runs : state.phase.running = true)
    : state.Opens := by
  refine (running_reach (fun state => state.worker.poll.Wired ∧ state.Opens)
    ⟨wired_new cfg, opens_new cfg⟩ ?_ run runs).2
  intro before input after earlier _ takes
  exact ⟨takes.wired earlier.1, (takes.shifts earlier.1).opens earlier.2⟩

-----------------------------------------------------------------------------------------
-- Who owns the open descriptors
-----------------------------------------------------------------------------------------

/-- The actions whose streams go through `into_raw_fd` once they are deregistered. -/
def intoRawFd : ActionResult → Bool
  | .ok (.serverStreamEOF _ _) => true
  | .ok (.serverDoneWrite _ _ _) => true
  | .ok (.serverCasketResponseDone _ _ _) => true
  | _ => false

/-- The next result is not one whose stream is released. -/
def KeepsFd (self : WorkerLoop) : WorkerInput → Prop
  | .action (.ok ()) _ => (self.phase.nextResult.map (intoRawFd ·.1)).getD false = false
  | _ => True

instance (self : WorkerLoop) (input : WorkerInput) : Decidable (self.KeepsFd input) := by
  unfold KeepsFd
  split <;> infer_instance

/-- The descriptors open in the worker are those waiting and those its streams own, none was
closed twice, and the stream of every answer was closed.
-/
structure OwnsFds (state : WorkerLoop) : Prop where
  fds
    : openFds state.trace
      = some (state.worker.msgBuf.streamFds + fdsOf (mapped state.worker))
  answered : total told state.trace = (total closes state.trace).map Prod.fst

/-- An insertion may replace a stream, but releases none. -/
theorem releases_replacing (tk : Token) (replaced : Option TcpStream)
    : total releases (replacing tk replaced) = 0 := by
  cases replaced <;> rfl

/-- No event releases a stream. -/
theorem Delivers.releases {tk : Token} {ev : Event}
    (delivers : self.Delivers cfg bincode tk ev after)
    : total WorkerEffect.releases after.trace = total WorkerEffect.releases self.trace := by
  cases delivers with
  | queuedRequests =>
      refine (total_append _ _ _).trans ?_
      rw [total_map_none WorkerEffect.releases _ fun _ => rfl, add_zero]
  | pollPythonResponses =>
      refine (total_append _ _ _).trans ?_
      rw [total_append, total_map_none WorkerEffect.releases _ fun _ => rfl,
        total_map_none WorkerEffect.releases _ fun _ => rfl, add_zero, add_zero]
      rfl
  | _ => simp [note, pushResults, pushTimeout]

/-- A handled result releases its stream only after the call that deregistered it. -/
theorem Settles.releases {res : ActionResult} {result : Except IoError Unit}
    (settles : self.Settles bincode res result after)
    (keeps : result = .ok () → intoRawFd res = false)
    : total WorkerEffect.releases after.trace = total WorkerEffect.releases self.trace := by
  cases settles with
  | answered _ ends =>
      refine (total_append _ _ _).trans ?_
      cases ends with
      | streamEOF | doneWrite | casketDone => cases keeps rfl
      | failed | unwritten | error => simp
  | lost => exact (total_append _ _ _).trans (by simp)
  | started => rfl
  | _ =>
      refine (total_append _ _ _).trans ?_
      rw [releases_replacing]
      exact add_zero _

/-- A step that keeps the descriptors releases no stream. -/
theorem Takes.releases (takes : self.Takes cfg bincode input after)
    (keeps : self.KeepsFd input)
    : total WorkerEffect.releases after.trace = total WorkerEffect.releases self.trace := by
  cases takes with
  | top _ goes =>
      rw [loopTop_goes goes rfl]
      refine (total_append _ _ _).trans ?_
      rw [total_map_none WorkerEffect.releases _ fun _ => rfl, add_zero]
  | event _ delivers => exact delivers.releases
  | timeout _ expires =>
      cases expires with
      | stale | requestRead => rfl
      | pythonCode => exact (total_append _ _ _).trans (by simp [pushResults])
  | @result res phase result now _ popped settles =>
      refine settles.releases ?_
      rintro rfl
      rw [KeepsFd, popped] at keeps
      exact keeps
  | _ => rfl

/-- At the top of the loop the worker owns the open descriptors exactly if it has released
none, so it does as long as no stream goes through `into_raw_fd`. Witness: what a step moves
it opens or closes, and only a released stream leaves an open descriptor behind.
-/
theorem descriptors_owned (cfg : Config) (crates : Crates) (bincode : Bincode)
    : (∀ state,
        Reach (step cfg crates bincode) KeepsFd (.new cfg) state → state.phase = .top →
        state.OwnsFds)
      ∧ ∀ state,
          Reach (step cfg crates bincode) (fun _ _ => True) (.new cfg) state →
          state.phase = .top →
          (state.OwnsFds ↔ total releases state.trace = 0) := by
  have exactly {guard : WorkerLoop → WorkerInput → Prop} {state : WorkerLoop}
      (run : Reach (step cfg crates bincode) guard (.new cfg) state)
      (stands : state.phase = .top)
      : state.OwnsFds ↔ total releases state.trace = 0 := by
    have runs : state.phase.running = true := stands ▸ rfl
    have opens := opens_reach run runs
    have conserves := (conserved_reach run runs).2
    have held : state.holdings = mapped state.worker := by
      rw [holdings, stands]
      exact zero_add _
    constructor
    · rintro ⟨fds, -⟩
      have both := opens.fds.symm.trans fds
      rw [held] at both
      have none := add_eq_left.mp (Option.some.inj both)
      exact Multiset.map_eq_zero.mp none
    · intro none
      constructor
      · rw [opens.fds, held, none]
        exact congrArg some (add_zero _)
      · rw [conserves.answers, opens.left, none, add_zero]
  constructor
  · intro state run stands
    refine (exactly run stands).mpr ?_
    refine running_reach (fun state => total releases state.trace = 0) rfl ?_ run (stands ▸ rfl)
    intro before input after earlier keeps takes
    exact (takes.releases keeps).trans earlier
  · intro state run stands
    exact exactly run stands

/-- A stream has arrived and is registered: its descriptor is open and owned. -/
theorem descriptors_owned_one
    : ∃ state : WorkerLoop,
        openFds state.trace = some {9}
        ∧ mapped state.worker = {(5, ⟨9⟩)}
        ∧ state.OwnsFds
        ∧ total releases state.trace = 0 := by
  have runs
      : (exec (step (.default "casket") (.onHead "0") .fixint) KeepsFd
          (.new (.default "casket")) (WorkerInput.accepting .fixint 0 [⟨5, 7⟩] [9])).map
          (fun state =>
            (openFds state.trace, mapped state.worker, state.phase.isTop))
        = some (some {9}, {(5, ⟨9⟩)}, true) := by
    decide +kernel
  obtain ⟨state, done, out⟩ := Option.map_eq_some_iff.mp runs
  obtain ⟨opened, rest⟩ := Prod.mk.inj out
  obtain ⟨owned, stands⟩ := Prod.mk.inj rest
  have run := Reach.of_exec _ done
  have top := WorkerPhase.eq_top stands
  have owns := descriptors_owned (.default "casket") (.onHead "0") .fixint
  exact
    ⟨state, opened, owned, owns.1 state run top,
      (owns.2 state (run.weaken fun _ => trivial) top).mp (owns.1 state run top)⟩

/-- A client closes its idle connection: the server is told, and the descriptor stays open
although no stream owns it.
-/
theorem descriptor_left_open
    : ∃ state : WorkerLoop,
        Reach (step (.default "casket") (.onHead "0") .fixint) (fun _ _ => True)
          (.new (.default "casket")) state
        ∧ state.phase = .top
        ∧ total told state.trace = {5}
        ∧ openFds state.trace = some {9}
        ∧ ¬ state.OwnsFds := by
  have runs
      : (exec (step (.default "casket") (.onHead "0") .fixint) (fun _ _ => True)
          (.new (.default "casket"))
          (WorkerInput.accepting .fixint 0 [⟨5, 7⟩] [9]
            ++ WorkerInput.turn 0 [] [⟨5, true, false⟩] [.quiet] 1 0 0)).map
          (fun state =>
            (openFds state.trace,
              (state.worker.msgBuf.streamFds + fdsOf (mapped state.worker) : Multiset RawFd),
              total told state.trace, state.phase.isTop))
        = some (some {9}, 0, {5}, true) := by
    decide +kernel
  obtain ⟨state, done, out⟩ := Option.map_eq_some_iff.mp runs
  obtain ⟨opened, rest⟩ := Prod.mk.inj out
  obtain ⟨owned, rest⟩ := Prod.mk.inj rest
  obtain ⟨answered, stands⟩ := Prod.mk.inj rest
  refine
    ⟨state, Reach.of_exec _ done, WorkerPhase.eq_top stands, answered, opened, ?_⟩
  rintro ⟨fds, -⟩
  rw [opened, owned] at fds
  exact absurd fds (by decide)

end WorkerLoop
end Casket
