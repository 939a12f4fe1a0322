import Mathlib.Data.List.Flatten
import Casket.Lib.Buffer

/-! Length-prefixed frames on a byte stream that may be cut anywhere.
A sender appends whole frames; a receiver splits whatever has arrived and keeps the rest.
-/

namespace Lib

/-- A frame is a size prefix of `header` bytes and a payload of that many bytes.
The receiving loop looks at its buffer only while more than `slack` bytes wait, and a
prefix is faithful for sizes below `limit`.
-/
structure FrameFormat where
  header : Nat
  slack : Nat
  limit : Nat
  writeSize : Nat → List UInt8
  readSize : List UInt8 → Nat
  length_writeSize : ∀ size, (writeSize size).length = header
  readSize_writeSize : ∀ size rest, size < limit → readSize (writeSize size ++ rest) = size
  header_pos : 0 < header
  header_le : header ≤ slack + 1

namespace FrameFormat

variable (format : FrameFormat)

/-- One payload behind its size prefix. -/
def frame (payload : List UInt8) : List UInt8 :=
  format.writeSize payload.length ++ payload

/-- The bytes of a sequence of frames. -/
def stream (payloads : List (List UInt8)) : List UInt8 :=
  (payloads.map format.frame).flatten

/-- A payload the format carries: its size fits the prefix, and its frame is long enough
for the receiving loop to look at it.
-/
def Fits (payload : List UInt8) : Prop :=
  payload.length < format.limit ∧ format.slack < format.header + payload.length

/-- The receiving loop: take whole frames off the front of the buffer, and report the
payload slices with the number of bytes they and their prefixes used.
-/
def splitFrom : Nat → List UInt8 → List (List UInt8) × Nat
  | 0, _ => ([], 0)
  | fuel + 1, buf =>
      if buf.length ≤ format.slack then
        ([], 0)
      else
        let size := format.readSize buf
        if buf.length < size + format.header then
          ([], 0)
        else
          let rest := splitFrom fuel (buf.drop (size + format.header))
          ((buf.drop format.header).take size :: rest.1, size + format.header + rest.2)

/-- Every frame uses at least one byte, so the buffer's length bounds the iterations. -/
def split (buf : List UInt8) : List (List UInt8) × Nat :=
  format.splitFrom buf.length buf

@[simp]
theorem length_frame (payload : List UInt8)
    : (format.frame payload).length = format.header + payload.length := by
  simp [frame, format.length_writeSize]

@[simp]
theorem stream_nil : format.stream [] = [] := rfl

@[simp]
theorem stream_cons (payload : List UInt8) (rest : List (List UInt8))
    : format.stream (payload :: rest) = format.frame payload ++ format.stream rest := rfl

@[simp]
theorem stream_append (first second : List (List UInt8))
    : format.stream (first ++ second) = format.stream first ++ format.stream second := by
  simp [stream]

-----------------------------------------------------------------------------------------
-- Splitting a stream that is cut anywhere
-----------------------------------------------------------------------------------------

variable {format}

private theorem splitFrom_whole {payload rest : List UInt8} {fuel : Nat}
    (fits : format.Fits payload)
    : format.splitFrom (fuel + 1) (format.frame payload ++ rest)
      = (payload :: (format.splitFrom fuel rest).1,
          payload.length + format.header + (format.splitFrom fuel rest).2) := by
  have size : format.readSize (format.frame payload ++ rest) = payload.length := by
    rw [frame, List.append_assoc]
    exact format.readSize_writeSize _ _ fits.1
  have dropHeader
      : (format.frame payload ++ rest).drop format.header = payload ++ rest := by
    rw [frame, List.append_assoc, ← format.length_writeSize payload.length, List.drop_left]
  have dropFrame
      : (format.frame payload ++ rest).drop (payload.length + format.header) = rest := by
    rw [Nat.add_comm, ← length_frame, List.drop_left]
  have long : ¬(format.frame payload ++ rest).length ≤ format.slack := by
    have := fits.2
    simp only [List.length_append, length_frame]
    omega
  have whole
      : ¬(format.frame payload ++ rest).length < payload.length + format.header := by
    simp only [List.length_append, length_frame]
    omega
  simp only [splitFrom, size, if_neg long, if_neg whole, dropFrame, dropHeader,
    List.take_left]

private theorem splitFrom_incomplete {payload buf missing : List UInt8} {fuel : Nat}
    (fits : format.Fits payload) (short : buf.length < (format.frame payload).length)
    (part : buf ++ missing = format.frame payload)
    : format.splitFrom fuel buf = ([], 0) := by
  cases fuel with
  | zero => rfl
  | succ fuel =>
      simp only [splitFrom]
      split
      · rfl
      · next long =>
          -- More than `slack` bytes hold the whole prefix, which announces the payload.
          have headerLe := format.header_le
          have inside : format.header ≤ buf.length := by omega
          have head : buf = format.writeSize payload.length ++ buf.drop format.header := by
            have taken : buf.take format.header = format.writeSize payload.length := by
              have front := congrArg (List.take format.header) part
              have size := format.length_writeSize payload.length
              rwa [List.take_append_of_le_length inside, frame,
                List.take_append_of_le_length (Nat.le_of_eq size.symm),
                List.take_of_length_le (Nat.le_of_eq size)] at front
            rw [← taken, List.take_append_drop]
          have size : format.readSize buf = payload.length := by
            rw [head]
            exact format.readSize_writeSize _ _ fits.1
          rw [length_frame] at short
          rw [size, if_pos (by omega)]

/-- Splitting a prefix of a frame stream yields its whole frames, in order, and leaves a
proper part of the next frame. Witness: induction on the frames; each either lies wholly
in the buffer, or is the first that does not.
-/
theorem splitFrom_prefix {payloads : List (List UInt8)} {fuel : Nat}
    {buf pending : List UInt8} (fits : ∀ payload ∈ payloads, format.Fits payload)
    (enough : buf.length ≤ fuel) (bytes : buf ++ pending = format.stream payloads)
    : ∃ done left,
        payloads = done ++ left
        ∧ format.splitFrom fuel buf = (done, (format.stream done).length)
        ∧ buf.drop (format.stream done).length ++ pending = format.stream left
        ∧ ∀ payload ∈ left.head?,
            (buf.drop (format.stream done).length).length
              < (format.frame payload).length := by
  induction payloads generalizing fuel buf with
  | nil =>
      obtain ⟨rfl, rfl⟩ := List.append_eq_nil_iff.mp bytes
      refine ⟨[], [], rfl, ?_, rfl, by simp⟩
      cases fuel <;> simp [splitFrom]
  | cons payload rest ih =>
      have headFits := fits payload List.mem_cons_self
      rw [stream_cons] at bytes
      by_cases whole : (format.frame payload).length ≤ buf.length
      · obtain ⟨later, rfl⟩ : format.frame payload <+: buf :=
          List.prefix_of_prefix_length_le ⟨format.stream rest, bytes.symm⟩
            (List.prefix_append buf pending) whole
        rw [List.append_assoc] at bytes
        have positive := format.header_pos
        rw [List.length_append, length_frame] at enough
        obtain ⟨fuel, rfl⟩ : ∃ less, fuel = less + 1 := ⟨fuel - 1, by omega⟩
        obtain ⟨done, left, rfl, splits, remaining, proper⟩ :=
          @ih fuel later (fun other member => fits other (List.mem_cons_of_mem _ member))
            (by omega) (List.append_cancel_left bytes)
        have skip
            : (format.frame payload ++ later).drop (format.stream (payload :: done)).length
              = later.drop (format.stream done).length := by
          rw [stream_cons, List.length_append, List.drop_append]
          simp
        refine ⟨payload :: done, left, rfl, ?_, ?_, ?_⟩
        · rw [splitFrom_whole headFits, splits]
          simp [Nat.add_comm]
        · rw [skip, remaining]
        · rw [skip]
          exact proper
      · have short : buf.length < (format.frame payload).length := Nat.lt_of_not_le whole
        obtain ⟨missing, part⟩ : buf <+: format.frame payload :=
          List.prefix_of_prefix_length_le ⟨pending, bytes⟩ (List.prefix_append _ _)
            (Nat.le_of_lt short)
        refine ⟨[], payload :: rest, rfl, ?_, ?_, ?_⟩
        · exact splitFrom_incomplete headFits short part
        · simpa using bytes
        · simpa using short

-----------------------------------------------------------------------------------------
-- What a receiver holds, and what is still on its way
-----------------------------------------------------------------------------------------

/-- The receiver holds `leftover`, the bytes `pending` are on their way, and together they
are exactly the frames of `payloads`; the leftover never contains a whole frame.
-/
structure Carries (format : FrameFormat) (leftover pending : List UInt8)
    (payloads : List (List UInt8))
    : Prop where
  fits : ∀ payload ∈ payloads, format.Fits payload
  bytes : leftover ++ pending = format.stream payloads
  proper : ∀ payload ∈ payloads.head?, leftover.length < (format.frame payload).length

/-- An idle connection carries nothing. -/
theorem Carries.idle : format.Carries [] [] [] :=
  ⟨by simp, rfl, by simp⟩

/-- Appending a frame to what is on its way appends its payload. -/
theorem Carries.send {leftover pending : List UInt8} {payloads : List (List UInt8)}
    (carries : format.Carries leftover pending payloads) {payload : List UInt8}
    (fits : format.Fits payload)
    : format.Carries leftover (pending ++ format.frame payload) (payloads ++ [payload]) := by
  refine ⟨?_, ?_, ?_⟩
  · intro other member
    rcases List.mem_append.mp member with earlier | last
    · exact carries.fits other earlier
    · exact List.mem_singleton.mp last ▸ fits
  · rw [← List.append_assoc, carries.bytes]
    simp
  · intro first member
    cases payloads with
    | nil =>
        have empty := carries.bytes
        obtain ⟨rfl, -⟩ := List.append_eq_nil_iff.mp empty
        have positive := format.header_pos
        rw [length_frame, List.length_nil]
        omega
    | cons head rest => exact carries.proper first (by simpa using member)

/-- Appending several frames appends their payloads, by induction. -/
theorem Carries.sendAll {leftover pending : List UInt8} {payloads : List (List UInt8)}
    (carries : format.Carries leftover pending payloads) {more : List (List UInt8)}
    (fits : ∀ payload ∈ more, format.Fits payload)
    : format.Carries leftover (pending ++ format.stream more) (payloads ++ more) := by
  induction more generalizing pending payloads with
  | nil => simpa using carries
  | cons payload rest ih =>
      have next := carries.send (fits payload List.mem_cons_self)
      simpa using ih next (fun other member => fits other (List.mem_cons_of_mem _ member))

/-- Receiving some of the pending bytes and splitting the buffer takes the first payloads
off, whole and in order, and carries the others.
-/
theorem Carries.receive {leftover data pending : List UInt8}
    {payloads : List (List UInt8)}
    (carries : format.Carries leftover (data ++ pending) payloads)
    : ∃ done left,
        payloads = done ++ left
        ∧ format.split (leftover ++ data) = (done, (format.stream done).length)
        ∧ (format.stream done).length ≤ (leftover ++ data).length
        ∧ format.Carries ((leftover ++ data).drop (format.stream done).length) pending
            left := by
  have bytes : (leftover ++ data) ++ pending = format.stream payloads := by
    rw [List.append_assoc]
    exact carries.bytes
  obtain ⟨done, left, rfl, splits, remaining, proper⟩ :=
    splitFrom_prefix carries.fits (Nat.le_refl _) bytes
  refine ⟨done, left, rfl, splits, ?_, ?_, remaining, proper⟩
  · by_contra long
    have gone : (leftover ++ data).drop (format.stream done).length = [] :=
      List.drop_eq_nil_of_le (by omega)
    have lengths := congrArg List.length bytes
    have tail := congrArg List.length remaining
    rw [gone, List.nil_append] at tail
    rw [stream_append] at lengths
    simp only [List.length_append] at lengths long
    omega
  · intro payload member
    exact carries.fits payload (List.mem_append_right _ member)

/-- Receiving into a fixed buffer behind the leftover, splitting, and sliding what is left
to the front: the buffer then holds the new leftover. Witness: the rule for receiving, with
the two facts about filling and sliding a buffer.
-/
theorem Carries.refill {buf data pending : List UInt8} {filled : Nat}
    {payloads : List (List UInt8)}
    (carries : format.Carries (buf.take filled) (data ++ pending) payloads)
    (fits : filled + data.length ≤ buf.length)
    : ∃ done left consumed,
        payloads = done ++ left
        ∧ format.split ((fill buf filled data).take (filled + data.length))
          = (done, consumed)
        ∧ consumed ≤ filled + data.length
        ∧ format.Carries
            ((slide (fill buf filled data) consumed (filled + data.length - consumed)).take
              (filled + data.length - consumed))
            pending left := by
  obtain ⟨done, left, rfl, splits, used, rest⟩ := carries.receive
  have front : (fill buf filled data).take (filled + data.length) = buf.take filled ++ data :=
    take_fill (by omega)
  have room : filled + data.length ≤ (fill buf filled data).length := by
    rw [length_fill fits]
    exact fits
  have within : (format.stream done).length ≤ filled + data.length := by
    have arrived := congrArg List.length front
    rw [List.length_take, Nat.min_eq_left room] at arrived
    omega
  refine ⟨done, left, (format.stream done).length, rfl, ?_, within, ?_⟩
  · rw [front, splits]
  · rw [take_slide_rest within room, front]
    exact rest

/-- When nothing is on its way, a proper part of a frame is no bytes at all. -/
theorem Carries.drained {leftover : List UInt8} {payloads : List (List UInt8)}
    (carries : format.Carries leftover [] payloads)
    : payloads = [] ∧ leftover = [] := by
  have bytes := carries.bytes
  rw [List.append_nil] at bytes
  cases payloads with
  | nil => exact ⟨rfl, bytes⟩
  | cons payload rest =>
      have short := carries.proper payload rfl
      rw [bytes, stream_cons, List.length_append] at short
      omega

/-- A bound on every frame bounds the leftover. -/
theorem Carries.leftover_lt {leftover pending : List UInt8}
    {payloads : List (List UInt8)} (carries : format.Carries leftover pending payloads)
    {bound : Nat}
    (frames : ∀ payload ∈ payloads, (format.frame payload).length ≤ bound)
    (positive : 0 < bound)
    : leftover.length < bound := by
  cases payloads with
  | nil =>
      obtain ⟨rfl, -⟩ := List.append_eq_nil_iff.mp carries.bytes
      exact positive
  | cons payload rest =>
      exact Nat.lt_of_lt_of_le (carries.proper payload rfl) (frames payload List.mem_cons_self)

end FrameFormat
end Lib
