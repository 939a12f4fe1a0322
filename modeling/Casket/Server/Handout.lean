import Casket.Server.Steps

/-! What the server needs of its configuration: a worker to hand a stream to. Nothing else
makes the choice of a worker panic.
-/

namespace Casket

namespace UnixStreams

/-- The chosen position is one of the streams, unless there are none. -/
theorem leastLoaded_lt {streams : List UnixStream} (some : streams ≠ [])
    : leastLoaded streams < streams.length := by
  have within (entries : List (UnixStream × Nat)) (best : Nat × Nat)
      (there : best.1 < streams.length)
      (indices : ∀ entry ∈ entries, entry.2 < streams.length)
      : (entries.foldl
          (fun best stream =>
            if stream.1.numReqs < best.2 then (stream.2, stream.1.numReqs) else best)
          best).1
        < streams.length := by
    induction entries generalizing best with
    | nil => exact there
    | cons entry rest ih =>
        rw [List.foldl_cons]
        refine ih _ ?_ fun other member => indices other (List.mem_cons_of_mem _ member)
        split
        · exact indices entry List.mem_cons_self
        · exact there
  refine within _ _ (List.length_pos_of_ne_nil some) fun entry member => ?_
  exact (List.mem_zipIdx' member).1

/-- A stream can be handed out exactly if there is a worker. -/
theorem msgSendTcpStream_panics {streams : List UnixStream} {tk : Token} {fd : RawFd}
    {panic : Panic} (failed : msgSendTcpStream streams tk fd = .error panic)
    : streams = [] := by
  unfold msgSendTcpStream at failed
  split at failed
  · next none =>
      by_contra some
      exact Nat.not_le.mpr (leastLoaded_lt some) (List.getElem?_eq_none_iff.mp none)
  · cases failed

theorem drain_panics {pop : ServerMsgBuffer → Option (Token × ServerMsgBuffer)} {fuel : Nat}
    {stream : UnixStream} {panic : Panic}
    (failed : stream.drain (UnixStream.nextToken pop) fuel = .error panic)
    : panic = .numReqsUnderflow := by
  induction fuel generalizing stream with
  | zero => cases failed
  | succ fuel ih =>
      simp only [UnixStream.drain] at failed
      split at failed
      · next stopped =>
          unfold UnixStream.nextToken at stopped
          split at stopped
          · cases stopped
          · split at stopped
            · obtain rfl := Except.error.inj stopped
              exact (Except.error.inj failed).symm
            · cases stopped
      · cases failed
      · split at failed
        · next stopped =>
            obtain rfl := Except.error.inj failed
            exact ih stopped
        · cases failed

/-- Taking tokens panics only for a count below zero, by induction on the streams. -/
theorem drainAll_panics {pop : ServerMsgBuffer → Option (Token × ServerMsgBuffer)}
    {waiting : UnixStream → Nat} {streams : List UnixStream} {panic : Panic}
    (failed : drainAll (UnixStream.nextToken pop) waiting streams = .error panic)
    : panic = .numReqsUnderflow := by
  induction streams generalizing panic with
  | nil => cases failed
  | cons stream rest ih =>
      simp only [drainAll] at failed
      split at failed
      · next stopped => exact drain_panics (Except.error.inj failed ▸ stopped)
      · split at failed
        · next stopped => exact ih (Except.error.inj failed ▸ stopped)
        · cases failed

end UnixStreams

/-- A read of a worker socket panics only for bytes that are no response. -/
theorem UnixStream.readStream_panics {bincode : Bincode} {self : UnixStream}
    {read : Except IoError Nat} {panic : Panic}
    (failed : self.readStream bincode read = some (.error panic))
    : panic = .deserializeResponse := by
  obtain ⟨⟨bytes, socket⟩, -, decoded⟩ := Option.map_eq_some_iff.mp failed
  simp only [ServerMsgBuffer.readUnixStream] at decoded
  split at decoded
  · cases decoded
  · split at decoded
    · exact (Except.error.inj decoded).symm
    · cases decoded

namespace Server

/-- A step that hands a stream to a worker. -/
def dispatches (server : Server) : ServerInput → Bool
  | .event io =>
      match server.phase with
      | .events (ev :: _) =>
          ev.token ≠ serverToken && (server.readingStreams.lookup ev.token).isSome
          && io.registers
      | _ => false
  | _ => false

/-- Streams are handed out only to workers that exist. -/
def Serves (cfg : Config) (server : Server) (input : ServerInput) : Prop :=
  server.dispatches input = true → 0 < cfg.numWorkers

instance (cfg : Config) (server : Server) (input : ServerInput)
    : Decidable (server.Serves cfg input) :=
  inferInstanceAs (Decidable (_ → _))

variable {cfg : Config} {bincode : Bincode} {server after : Server} {input : ServerInput}

/-- No step changes the number of workers. -/
theorem Takes.workers (takes : server.Takes cfg bincode input after)
    : after.unixStreams.length = server.unixStreams.length := by
  cases takes with
  | top =>
      rcases server.loopTop_cases cfg _ _ _ with
        starts | ⟨returns, -⟩ | ⟨time, -, -, -, returns⟩
      · obtain ⟨streams, registry, phase, started, keep, -⟩ := server.startIteration_frame _
        rw [starts, started]
        exact keep.length_eq.symm
      · rw [returns]
      · rw [returns]
        rfl
  | keepAlive =>
      unfold Server.keepAliveStream
      split
      · rfl
      · simp only
        split
        · rfl
        · split <;> rfl
  | keptAll =>
      obtain ⟨streams, phase, closing, keep, -⟩ := server.takeCloseTks_frame
      rw [closing]
      exact keep.length_eq.symm
  | close =>
      unfold Server.closeStream
      split <;> rfl
  | closedAll => rfl
  | poll =>
      unfold Server.polled
      simp only
      split <;> rfl
  | accept =>
      unfold Server.acceptStream
      split
      · rfl
      · simp only
        split
        · rfl
        · split <;> rfl
  | dispatch =>
      unfold Server.dispatchStream
      simp only
      split
      · split
        · rfl
        · next sent =>
            obtain ⟨stream, -, rfl⟩ := UnixStreams.msgSendTcpStream_ok sent
            exact List.length_set
      · rfl
  | unixStream stands other idle position found taken =>
      rcases unixStreamEvent_frame taken with ⟨panic, rfl⟩ | ⟨next, keeps, rfl⟩
      · rfl
      · exact List.length_set
  | unknown => rfl
  | handled => rfl

/-- Only a dispatch without workers panics for want of one. -/
theorem Takes.dispatched (takes : server.Takes cfg bincode input after)
    (workers : server.unixStreams.length = cfg.numWorkers) (serves : server.Serves cfg input)
    : after.phase ≠ .panicked .noUnixStream := by
  cases takes with
  | top =>
      rcases server.loopTop_cases cfg _ _ _ with
        starts | ⟨returns, -⟩ | ⟨time, -, -, -, returns⟩
      · rw [starts]
        unfold Server.startIteration
        simp only
        split
        · next drained =>
            rw [UnixStreams.drainAll_panics drained]
            exact nofun
        · exact nofun
      · rw [returns]
        exact nofun
      · rw [returns]
        exact nofun
  | keepAlive =>
      unfold Server.keepAliveStream
      split
      · exact nofun
      · simp only
        split
        · exact nofun
        · split <;> exact nofun
  | keptAll =>
      unfold Server.takeCloseTks
      split
      · next drained =>
          rw [UnixStreams.drainAll_panics drained]
          exact nofun
      · exact nofun
  | close =>
      unfold Server.closeStream
      split <;> exact nofun
  | closedAll => exact nofun
  | poll => exact nofun
  | accept =>
      unfold Server.acceptStream
      split
      · exact nofun
      · simp only
        split
        · exact nofun
        · split <;> exact nofun
  | @dispatch ev evs io tcpStream stands other waiting =>
      unfold Server.dispatchStream
      simp only
      split
      · next registers =>
          have hands : server.dispatches (.event io) = true := by
            simp [dispatches, stands, other, waiting, registers]
          have some := serves hands
          rw [← workers] at some
          split
          · next failed =>
              rw [UnixStreams.msgSendTcpStream_panics failed] at some
              cases some
          · exact nofun
      · exact nofun
  | unixStream stands other idle position found taken =>
      obtain ⟨result, read, rfl⟩ := Option.map_eq_some_iff.mp taken
      cases result with
      | ok between => exact nofun
      | error panic =>
          split at read
          · rw [UnixStream.readStream_panics read]
            exact nofun
          · cases read
  | unknown => exact nofun
  | handled => exact nofun

/-- A step ends the loop for want of a worker exactly if it does not serve. -/
theorem step_dispatched_iff (taken : server.step cfg bincode input = some after)
    (workers : server.unixStreams.length = cfg.numWorkers)
    : after.phase ≠ .panicked .noUnixStream ↔ server.Serves cfg input := by
  refine ⟨fun calm hands => ?_, fun serves => (step_takes taken).dispatched workers serves⟩
  refine Nat.pos_of_ne_zero fun none => calm ?_
  rw [none, List.length_eq_zero_iff] at workers
  unfold dispatches at hands
  split at hands
  · split at hands
    · next stands =>
        simp only [Bool.and_eq_true, decide_eq_true_eq] at hands
        obtain ⟨⟨other, waiting⟩, registers⟩ := hands
        obtain ⟨tcpStream, found⟩ := Option.isSome_iff_exists.mp waiting
        simp only [step, stands, handleEvent, if_neg other, found, Option.some.injEq] at taken
        subst taken
        simp only [dispatchStream, registers, if_true, workers, UnixStreams.msgSendTcpStream,
          List.getElem?_nil]
    · cases hands
  · cases hands

end Server
end Casket
