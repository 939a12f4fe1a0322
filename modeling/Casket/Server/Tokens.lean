import Casket.Server.Dispatch

/-! The tokens the server assigns. A connection's first token is a multiple of 2^24 and its
later ones step by 2^7, so they stay in its own range for 2^17 requests and no longer.
-/

namespace Casket

open Lib

-----------------------------------------------------------------------------------------
-- The server with its sockets in other hands
-----------------------------------------------------------------------------------------

/-- A step of the server, or whatever else may become of one of its sockets. -/
inductive ServerLabel where
  | input (input : ServerInput)
  | socket (n : Nat) (socket : UnixSocket)

namespace Server

/-- Replace what is in a socket. -/
def withSocket (server : Server) (n : Nat) (socket : UnixSocket) : Option Server :=
  (server.unixStreams[n]?).map fun stream =>
    { server with
      unixStreams := server.unixStreams.set n { stream with stream := socket } }

def openStep (cfg : Config) (bincode : Bincode) (server : Server)
    : ServerLabel → Option Server
  | .input input => server.step cfg bincode input
  | .socket n socket => server.withSocket n socket

/-- Fewer than 2^40 - 1 connections are accepted. -/
def FewAccepts (server : Server) : ServerInput → Prop
  | .event io => io.accept.isSome → server.clientStreamCount + 1 < 2 ^ 40 - 1
  | _ => True

/-- No stream is kept alive past the last token of its connection. -/
def KeptInRange (server : Server) : ServerInput → Prop
  | .keepAlive _ =>
      ∀ tk ∈ server.phase.remaining.head?, tk.toNat % 2 ^ 24 + 2 ^ 7 < 2 ^ 24
  | _ => True

/-- Both conditions on a step of the server; the sockets are free. -/
def InRange (server : Server) : ServerLabel → Prop
  | .input input => server.FewAccepts input ∧ server.KeptInRange input
  | .socket _ _ => True

instance (server : Server) (input : ServerInput) : Decidable (server.FewAccepts input) :=
  match input with
  | .event io =>
      inferInstanceAs
        (Decidable (io.accept.isSome → server.clientStreamCount + 1 < 2 ^ 40 - 1))
  | .top .. | .keepAlive _ | .close | .poll .. | .advance => isTrue trivial

instance (server : Server) (input : ServerInput) : Decidable (server.KeptInRange input) :=
  match input with
  | .keepAlive _ => Option.decidableForallMem server.phase.remaining.head?
  | .top .. | .event _ | .close | .poll .. | .advance => isTrue trivial

instance (server : Server) (label : ServerLabel) : Decidable (server.InRange label) :=
  match label with
  | .input input =>
      inferInstanceAs (Decidable (server.FewAccepts input ∧ server.KeptInRange input))
  | .socket _ _ => isTrue trivial

end Server

-----------------------------------------------------------------------------------------
-- Tokens spaced over connections
-----------------------------------------------------------------------------------------

/-- The number of the connection a token belongs to. -/
def connection (tk : Token) : Nat := tk.toNat / 2 ^ 24

/-- Tokens are assigned once, up to connection number `count`; the open ones belong to
different connections, and each is the last of its own.
-/
structure Spaced (assigned : List Token) (count : Nat) (opened : List Token) : Prop where
  distinct : assigned.Nodup
  counted : ∀ tk ∈ assigned, connection tk ≤ count
  known : ∀ tk ∈ opened, tk ∈ assigned
  apart : (opened.map connection).Nodup
  latest
    : ∀ tk ∈ opened,
      ∀ other ∈ assigned,
        connection other = connection tk → other.toNat ≤ tk.toNat

namespace Spaced

variable {assigned opened fewer : List Token} {count : Nat}

/-- Streams may close and change places. -/
theorem close (spaced : Spaced assigned count opened) (fewerOpen : fewer.Subperm opened)
    : Spaced assigned count fewer where
  distinct := spaced.distinct
  counted := spaced.counted
  known tk member := spaced.known tk (fewerOpen.subset member)
  apart := by
    obtain ⟨same, permuted, within⟩ := fewerOpen
    exact (permuted.map connection).nodup_iff.mp (spaced.apart.sublist (within.map _))
  latest tk member := spaced.latest tk (fewerOpen.subset member)

/-- A token beyond all those of its connection, which is not open otherwise. -/
theorem assign (spaced : Spaced assigned count opened) {tk : Token} {count' : Nat}
    (numbered : connection tk ≤ count') (more : count ≤ count')
    (alone : ∀ other ∈ opened, connection other ≠ connection tk)
    (later : ∀ other ∈ assigned, connection other = connection tk → other.toNat < tk.toNat)
    : Spaced (assigned ++ [tk]) count' (tk :: opened) where
  distinct := by
    refine List.nodup_append.mpr ⟨spaced.distinct, List.nodup_singleton tk, ?_⟩
    rintro other member _ last rfl
    obtain rfl := List.mem_singleton.mp last
    exact Nat.lt_irrefl _ (later other member rfl)
  counted other member := by
    rcases List.mem_append.mp member with before | last
    · exact Nat.le_trans (spaced.counted other before) more
    · obtain rfl := List.mem_singleton.mp last
      exact numbered
  known other member := by
    rcases List.mem_cons.mp member with rfl | before
    · exact List.mem_append_right _ List.mem_cons_self
    · exact List.mem_append_left _ (spaced.known other before)
  apart := by
    rw [List.map_cons, List.nodup_cons]
    refine ⟨?_, spaced.apart⟩
    intro taken
    obtain ⟨other, member, same⟩ := List.mem_map.mp taken
    exact alone other member same
  latest open_ member other known same := by
    rcases List.mem_append.mp known with before | last
    · rcases List.mem_cons.mp member with rfl | member
      · exact Nat.le_of_lt (later other before same)
      · exact spaced.latest open_ member other before same
    · obtain rfl := List.mem_singleton.mp last
      rcases List.mem_cons.mp member with rfl | member
      · exact Nat.le_refl _
      · exact absurd same.symm (alone open_ member)

/-- The next connection's first token. -/
theorem accept (spaced : Spaced assigned count opened) (few : count + 1 < 2 ^ 40)
    : Spaced (assigned ++ [UInt64.ofNat ((count + 1) * newStreamCountInc)]) (count + 1)
        (UInt64.ofNat ((count + 1) * newStreamCountInc) :: opened) := by
  have numbered : connection (UInt64.ofNat ((count + 1) * newStreamCountInc)) = count + 1 := by
    unfold connection newStreamCountInc
    rw [UInt64.toNat_ofNat']
    omega
  have before : ∀ other ∈ assigned, connection other ≠ count + 1 := by
    intro other member same
    have below := spaced.counted other member
    omega
  refine spaced.assign (Nat.le_of_eq numbered) (Nat.le_succ count) ?_ ?_
  · intro other member same
    exact before other (spaced.known other member) (same.trans numbered)
  · intro other member same
    exact absurd (same.trans numbered) (before other member)

/-- The next token of an open connection, in its range. -/
theorem keepAlive {tk : Token} (spaced : Spaced assigned count (tk :: opened))
    (inRange : tk.toNat % 2 ^ 24 + 2 ^ 7 < 2 ^ 24)
    : Spaced (assigned ++ [tk + keepAliveCountInc]) count
        ((tk + keepAliveCountInc) :: opened) := by
  have value : (tk + keepAliveCountInc).toNat = tk.toNat + 2 ^ 7 := by
    have bound := tk.toNat_lt
    have step : keepAliveCountInc.toNat = 2 ^ 7 := rfl
    rw [UInt64.toNat_add, step]
    omega
  have same : connection (tk + keepAliveCountInc) = connection tk := by
    unfold connection
    rw [value]
    omega
  have others := spaced.close (List.sublist_cons_self tk opened).subperm
  have apart := spaced.apart
  rw [List.map_cons, List.nodup_cons] at apart
  refine others.assign ?_ (Nat.le_refl _) ?_ ?_
  · rw [same]
    exact spaced.counted tk (spaced.known tk List.mem_cons_self)
  · intro other member equal
    rw [same] at equal
    exact apart.1 (equal ▸ List.mem_map_of_mem member)
  · intro other member equal
    have last := spaced.latest tk List.mem_cons_self other member (equal.trans same)
    rw [value]
    omega

/-- Open tokens are distinct. -/
theorem nodup (spaced : Spaced assigned count opened) : opened.Nodup :=
  spaced.apart.of_map connection

end Spaced

-----------------------------------------------------------------------------------------
-- Every step keeps the tokens spaced
-----------------------------------------------------------------------------------------

namespace Server

/-- The tokens of all open streams. -/
def openTks (server : Server) : List Token :=
  server.readingStreams.keys ++ server.processingStreams.keys

/-- The server's tokens are spaced. -/
def Tracked (server : Server) : Prop :=
  Spaced server.assigned server.clientStreamCount server.openTks

variable {cfg : Config} {bincode : Bincode} {server : Server}

/-- Steps that assign no token and open no stream. -/
theorem Tracked.closes (tracked : server.Tracked) {after : Server}
    (assigned : after.assigned = server.assigned)
    (count : after.clientStreamCount = server.clientStreamCount)
    (fewer : after.openTks.Subperm server.openTks)
    : after.Tracked := by
  unfold Tracked
  rw [assigned, count]
  exact tracked.close fewer

/-- Steps that leave the tokens alone. -/
theorem Tracked.same (tracked : server.Tracked) {after : Server}
    (assigned : after.assigned = server.assigned)
    (count : after.clientStreamCount = server.clientStreamCount)
    (reading : after.readingStreams = server.readingStreams)
    (processing : after.processingStreams = server.processingStreams)
    : after.Tracked := by
  refine tracked.closes assigned count ?_
  rw [openTks, reading, processing]
  exact List.Subperm.refl _

/-- The start of an iteration leaves the tokens alone. -/
theorem Tracked.startIteration (tracked : server.Tracked) (registers : Token → Bool)
    : (server.startIteration registers).Tracked := by
  simp only [Server.startIteration]
  split
  · exact tracked.same rfl rfl rfl rfl
  · exact tracked.same rfl rfl rfl rfl

/-- A shutdown only closes streams. -/
theorem Tracked.loopTop (tracked : server.Tracked) (elapsed : Option Duration)
    (closeNow : Bool) (registers : Token → Bool)
    : (server.loopTop cfg elapsed closeNow registers).Tracked := by
  have starts := tracked.startIteration registers
  have drained : (server.shutdownProcessing.openTks).Subperm server.openTks :=
    List.Sublist.subperm ((List.nil_sublist _).append_left _)
  unfold Server.loopTop
  repeat' split
  all_goals first
    | exact starts
    | exact tracked.same rfl rfl rfl rfl
    | exact tracked.closes rfl rfl drained

/-- The tokens with one in process set in front. -/
theorem Tracked.front (tracked : server.Tracked) {tk : Token}
    (there : tk ∈ server.processingStreams.keys)
    : Spaced server.assigned server.clientStreamCount
        (tk :: (server.readingStreams.keys ++ server.processingStreams.keys.erase tk)) := by
  have front := (List.perm_cons_erase there).append_left server.readingStreams.keys
  exact tracked.close (front.trans List.perm_middle).symm.subperm

/-- A kept stream moves to the next token of its connection, or closes. -/
theorem Tracked.keepAliveStream (tracked : server.Tracked) {tk : Token} (registers : Bool)
    (inRange : tk.toNat % 2 ^ 24 + 2 ^ 7 < 2 ^ 24)
    : (server.keepAliveStream tk registers).Tracked := by
  unfold Server.keepAliveStream
  split
  · exact tracked.same rfl rfl rfl rfl
  · next tcpStream found =>
      have there : tk ∈ server.processingStreams.keys := mem_keys_of_lookup found
      have next := (tracked.front there).keepAlive inRange
      have closed : Tracked
          { server with
            processingStreams := server.processingStreams.erase tk
            assigned := server.assigned ++ [tk + keepAliveCountInc] } := by
        refine next.close ?_
        rw [openTks, AList.keys_erase]
        exact (List.sublist_cons_self _ _).subperm
      simp only
      split
      · exact closed.same rfl rfl rfl rfl
      · split
        · refine next.close ?_
          rw [openTks, AList.keys_insert, AList.keys_erase, List.cons_append]
          exact (((List.erase_sublist).append_right _).cons_cons _).subperm
        · exact closed.same rfl rfl rfl rfl

/-- Closing a stream in process. -/
theorem Tracked.closeStream (tracked : server.Tracked) (tk : Token)
    : (server.closeStream tk).Tracked := by
  unfold Server.closeStream
  split
  · exact tracked.same rfl rfl rfl rfl
  · refine tracked.closes rfl rfl (List.Sublist.subperm ?_)
    simp only [openTks, giveUp, AList.keys_erase]
    exact List.erase_sublist.append_left _

/-- Taking the tokens to be closed leaves the tokens alone. -/
theorem Tracked.takeCloseTks (tracked : server.Tracked) : server.takeCloseTks.Tracked := by
  unfold Server.takeCloseTks
  split
  · exact tracked.same rfl rfl rfl rfl
  · exact tracked.same rfl rfl rfl rfl

/-- A shutdown closes the waiting streams. -/
theorem Tracked.polled (tracked : server.Tracked) (events : Option (List MioEvent))
    (running : Bool) (now : SystemTime) (deregisters : Token → Bool)
    : (server.polled events running now deregisters).Tracked := by
  unfold Server.polled
  split
  · refine tracked.closes rfl rfl (List.Sublist.subperm ?_)
    exact (List.nil_sublist _).append_right _
  · exact tracked.same rfl rfl rfl rfl

/-- An accepted stream gets the first token of a new connection. -/
theorem Tracked.acceptStream (tracked : server.Tracked) (io : EventIo)
    (few : io.accept.isSome → server.clientStreamCount + 1 < 2 ^ 40 - 1)
    : (server.acceptStream cfg io).Tracked := by
  unfold Server.acceptStream
  split
  · exact tracked
  · next tcpStream accepted =>
      have below : server.clientStreamCount + 1 < 2 ^ 40 := by
        have few := few (by rw [accepted]; rfl)
        omega
      have next := Spaced.accept tracked below
      have dropped : Tracked
          { server with
            clientStreamCount := server.clientStreamCount + 1
            assigned := server.assigned ++ [server.nextClientToken] } :=
        next.close (List.sublist_cons_self _ _).subperm
      simp only
      split
      · exact dropped.same rfl rfl rfl rfl
      · split
        · refine next.close ?_
          rw [openTks, AList.keys_insert, List.cons_append]
          exact ((List.erase_sublist.append_right _).cons_cons _).subperm
        · exact dropped.same rfl rfl rfl rfl

/-- A dispatched stream changes maps under its token. -/
theorem Tracked.dispatchStream (tracked : server.Tracked) {tk : Token}
    {tcpStream : TcpStream} (found : server.readingStreams.lookup tk = some tcpStream)
    (io : EventIo)
    : (server.dispatchStream tk tcpStream io).Tracked := by
  have there : tk ∈ server.readingStreams.keys := mem_keys_of_lookup found
  have dropped : Tracked { server with readingStreams := server.readingStreams.erase tk } := by
    refine tracked.closes rfl rfl (List.Sublist.subperm ?_)
    rw [openTks, openTks, AList.keys_erase]
    exact List.erase_sublist.append_right _
  unfold Server.dispatchStream
  simp only
  split
  · split
    · exact dropped.same rfl rfl rfl rfl
    · refine tracked.closes rfl rfl ?_
      have idle : tk ∉ server.processingStreams.keys := by
        intro processing
        exact (List.nodup_append.mp tracked.nodup).2.2 tk there tk processing rfl
      rw [openTks, openTks, AList.keys_erase, AList.keys_insert, List.erase_of_not_mem idle]
      have moved := (List.perm_cons_erase there).append_right server.processingStreams.keys
      exact (List.perm_middle.trans moved.symm).subperm
  · exact dropped.same rfl rfl rfl rfl

/-- Every step in range keeps the tokens spaced. Witness: one case for each phase. -/
theorem Tracked.stepped (tracked : server.Tracked) {input : ServerInput}
    (few : server.FewAccepts input) (kept : server.KeptInRange input) {after : Server}
    (taken : server.step cfg bincode input = some after)
    : after.Tracked := by
  unfold Server.step at taken
  split at taken
  · next elapsed closeNow registers stands =>
      exact Option.some.inj taken ▸ tracked.loopTop elapsed closeNow registers
  · next tk tks registers stands =>
      obtain rfl := Option.some.inj taken
      have inRange : tk.toNat % 2 ^ 24 + 2 ^ 7 < 2 ^ 24 := by
        apply kept tk
        rw [stands]
        rfl
      have before : Tracked { server with phase := .keepAlive tks } :=
        tracked.same rfl rfl rfl rfl
      exact before.keepAliveStream registers inRange
  · exact Option.some.inj taken ▸ tracked.takeCloseTks
  · next tk tks stands =>
      obtain rfl := Option.some.inj taken
      have before : Tracked { server with phase := .closing tks } :=
        tracked.same rfl rfl rfl rfl
      exact before.closeStream tk
  · exact Option.some.inj taken ▸ tracked.same rfl rfl rfl rfl
  · next events running now deregisters stands =>
      exact Option.some.inj taken ▸ tracked.polled events running now deregisters
  · next ev evs io stands =>
      have before : Tracked { server with phase := .events evs } :=
        tracked.same rfl rfl rfl rfl
      unfold Server.handleEvent at taken
      split at taken
      · exact Option.some.inj taken ▸ before.acceptStream io few
      · split at taken
        · next tcpStream found =>
            exact Option.some.inj taken ▸ before.dispatchStream found io
        · split at taken
          · split at taken
            · obtain ⟨result, -, rfl⟩ := Option.map_eq_some_iff.mp taken
              split
              · exact before.same rfl rfl rfl rfl
              · exact before.same rfl rfl rfl rfl
            · cases taken
          · exact Option.some.inj taken ▸ before.same rfl rfl rfl rfl
  · exact Option.some.inj taken ▸ tracked.same rfl rfl rfl rfl
  · cases taken

/-- The token a step in range opens a stream with is carried by no open stream. -/
theorem Tracked.fresh (tracked : server.Tracked) {input : ServerInput}
    (few : server.FewAccepts input) (kept : server.KeptInRange input)
    : server.FreshToken cfg input := by
  intro tk opening
  suffices tk ∉ server.openTks from not_or.mp (fun taken => this (List.mem_append.mpr taken))
  unfold opens at opening
  split at opening
  · next registers =>
      split at opening
      · next old tks stands =>
          split at opening
          · next permitted =>
              obtain rfl := Option.some.inj opening
              have inRange : old.toNat % 2 ^ 24 + 2 ^ 7 < 2 ^ 24 := by
                apply kept old
                rw [stands]
                rfl
              have next := ((tracked.front permitted.1).keepAlive inRange).nodup
              have moved : old + keepAliveCountInc ≠ old := by
                have step : keepAliveCountInc ≠ 0 := by decide
                simpa using step
              intro taken
              have front := (List.perm_cons_erase permitted.1).append_left
                server.readingStreams.keys
              rcases List.mem_cons.mp ((front.trans List.perm_middle).mem_iff.mp taken) with
                same | other
              · exact moved same
              · exact (List.nodup_cons.mp next).1 other
          · cases opening
      · cases opening
  · next io =>
      split at opening
      · split at opening
        · next permitted =>
            obtain rfl := Option.some.inj opening
            have below := few permitted.2.1
            have next := (Spaced.accept tracked (Nat.lt_trans below (by decide))).nodup
            exact (List.nodup_cons.mp next).1
        · cases opening
      · cases opening
  · cases opening

/-- Replacing what is in a socket leaves the tokens alone. -/
theorem Tracked.withSocket (tracked : server.Tracked) {n : Nat} {socket : UnixSocket}
    {after : Server} (taken : server.withSocket n socket = some after)
    : after.Tracked := by
  obtain ⟨stream, -, rfl⟩ := Option.map_eq_some_iff.mp taken
  exact tracked.same rfl rfl rfl rfl

/-- Every state of a run in range has its tokens spaced. -/
theorem tracked_reached {n : Nat}
    (run : Reach (Server.openStep cfg bincode) Server.InRange (Server.new n) server)
    : server.Tracked := by
  refine run.invariant Server.Tracked ?_ ?_
  · exact ⟨List.nodup_nil, by simp [Server.new], by simp [openTks, Server.new],
      List.nodup_nil, by simp [openTks, Server.new]⟩
  · intro before label after tracked inRange taken
    cases label with
    | input input => exact tracked.stepped inRange.1 inRange.2 taken
    | socket n socket => exact tracked.withSocket taken

end Server

end Casket
