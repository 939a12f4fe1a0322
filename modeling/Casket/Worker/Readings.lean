import Casket.Worker.ReaderRuns

/-! A reader with the bytes of the stream it has consumed and the size of the head that
`httparse` reported. A request is complete exactly when all bytes of its head and its body
are consumed, and its body is what stands behind the head.
-/

namespace Casket

open Lib

structure Reading where
  reader : Reader
  received : Bytes
  headerSize : Option Nat

/-- The size of the head that `httparse` reports in a call, if the head is whole by then. -/
def Reader.reported (crates : Crates) (reader : Reader) (call : ReadCall) : Option Nat :=
  match reader, call.read with
  | .begin bufLen buf, .ok data =>
      match growBuffer bufLen buf with
      | .error _ => none
      | .ok buf =>
          match crates.parseRequest ((fill buf bufLen data).take (bufLen + data.length)) with
          | .complete headerSize _ => some headerSize
          | .error _ | .partialHead => none
  | .begin _ _, .error _ | .haveHeader _, _ => none

namespace Reading

def new : Reading := ⟨.new, [], none⟩

/-- The size known after a call. -/
def sizeAfter (crates : Crates) (reading : Reading) (call : ReadCall) : Option Nat :=
  reading.headerSize.or (reading.reader.reported crates call)

/-- A call that leaves the reader to be continued. -/
def next (crates : Crates) (reading : Reading) (call : ReadCall) : Option Reading :=
  match call.read with
  | .error _ => none
  | .ok data =>
      (reading.reader.next crates call).map fun after =>
        ⟨after, reading.received ++ data, reading.sizeAfter crates call⟩

theorem next_ok {crates : Crates} {reading : Reading} {call : ReadCall} {data : Bytes}
    (read : call.read = .ok data)
    : reading.next crates call
      = (reading.reader.next crates call).map fun after =>
          ⟨after, reading.received ++ data, reading.sizeAfter crates call⟩ := by
  unfold next
  rw [read]

/-- A read returns no more than the slice it is given holds. -/
def Fits (reading : Reading) (call : ReadCall) : Prop := reading.reader.Fits call

/-- The buffer holds what was received until the head is whole; then the body holds what
stands behind the head, and more is to come.
-/
inductive Sound : Reading → Prop
  | begin {bufLen buf received} (buffered : Buffered bufLen buf received)
    : Sound ⟨.begin bufLen buf, received, none⟩
  | haveHeader {req : PartialHttpReq} {received headerSize} (within : headerSize ≤ received.length)
    (short : (received.drop headerSize).length < req.contentLength)
    : Sound ⟨.haveHeader (req.withBody (received.drop headerSize)), received, some headerSize⟩

/-- What a call returns for some bytes: a reader that is sound with them, or a request that
ends with them.
-/
inductive Gives (received : Bytes) (size : Option Nat) : ReadState → Prop
  | partialRead {after : Reader} (sound : Sound ⟨after, received, size⟩)
    : Gives received size (.partialRead after)
  | complete {req : HttpRequest} {headerSize : Nat} (known : size = some headerSize)
    (total : received.length = headerSize + req.contentLength)
    (body : req.body = some (received.drop headerSize))
    : Gives received size (.complete req)

variable {crates : Crates} {reading after : Reading} {call : ReadCall} {received : Bytes}

/-- Settling a request that has as much of its body as was received. -/
theorem Gives.settle {req : PartialHttpReq} {headerSize : Nat}
    (within : headerSize ≤ received.length)
    (enough : (received.drop headerSize).length ≤ req.contentLength)
    : Gives received (some headerSize)
        (Reader.settle (req.withBody (received.drop headerSize))) := by
  rw [Reader.settle_withBody]
  split
  · next whole =>
      refine .complete rfl ?_ ?_
      · have length : (req.withBody (received.drop headerSize)).toHttpRequest.contentLength
            = req.contentLength := rfl
        rw [length, ← whole, List.length_drop]
        omega
      · have body : (req.withBody (received.drop headerSize)).body = received.drop headerSize := by
          rw [PartialHttpReq.withBody, whole]
          simp
        exact congrArg some body
  · next more => exact .partialRead (.haveHeader within (by omega))

/-- A request that is read on has room for its whole body, and has not filled it. -/
theorem Gives.unfilled {size : Option Nat} {req : PartialHttpReq}
    (gives : Gives received size (.partialRead (.haveHeader req)))
    : req.body.length = req.contentLength ∧ req.bytesRead < req.contentLength := by
  cases gives with
  | partialRead later =>
      cases later with
      | haveHeader within short =>
          refine ⟨?_, short⟩
          rw [PartialHttpReq.withBody, List.length_append, List.length_replicate]
          exact Nat.add_sub_cancel' (Nat.le_of_lt short)

/-- While the head is not whole all that was received is parsed. -/
theorem reported_begin {bufLen : Nat} {buf data : Bytes} {rng : Rng}
    (buffered : Buffered bufLen buf received) (small : bufLen ≤ 2 ^ 62 - 1024)
    (fits : data.length ≤ (Reader.begin bufLen buf).room)
    : (Reader.begin bufLen buf).reported crates ⟨rng, .ok data⟩
      = match crates.parseRequest (received ++ data) with
        | .complete headerSize _ => some headerSize
        | .error _ | .partialHead => none := by
  rcases buffered.growBuffer with ⟨large, -⟩ | ⟨-, grown, grew, kept, room⟩
  · omega
  · simp only [Reader.room, grew] at fits
    have all := (kept.receive (show bufLen + data.length ≤ grown.length by omega)).held
    simp only [Reader.reported, grew, all]

/-- A read of some bytes by a sound reading. -/
theorem Sound.gives (sound : reading.Sound) {rng : Rng} {data : Bytes}
    (fits : reading.Fits ⟨rng, .ok data⟩) (some_ : data ≠ []) {state : ReadState}
    (returned : reading.reader.readTcpStream crates rng (.ok data) = .ok (.ok state))
    : Gives (reading.received ++ data) (reading.sizeAfter crates ⟨rng, .ok data⟩) state := by
  cases sound with
  | @begin bufLen buf received buffered =>
      rcases buffered.growBuffer with ⟨large, panics⟩ | ⟨small, -⟩
      · simp [Reader.readTcpStream, Reader.readHeader, panics] at returned
      · have room : data.length ≤ (Reader.begin bufLen buf).room := fits data rfl
        obtain ⟨bufLen', buf', more, same⟩ :=
          @Reader.readTcpStream_begin crates rng _ _ _ _ buffered small some_ room
        have reported := @reported_begin crates received bufLen buf data rng buffered small room
        rw [same] at returned
        simp only [sizeAfter, Option.none_or, reported]
        rcases parsed : crates.parseRequest (received ++ data) with e | - | ⟨size, request⟩
        · rw [(Reader.parseHeader_unfinished more).2 e parsed] at returned
          cases returned
        · rw [(Reader.parseHeader_unfinished more).1 parsed] at returned
          cases returned
          exact .partialRead (.begin more)
        · rw [Reader.parseHeader_complete more parsed] at returned
          split at returned
          · cases returned
          · cases returned
          · next req new =>
              split at returned
              · cases returned
              · next enough =>
                  split at returned
                  · cases returned
                  · obtain rfl := Except.ok.inj (Except.ok.inj returned)
                    exact .settle (crates.headerSize_le parsed) (Nat.le_of_not_lt enough)
  | @haveHeader req received headerSize within short =>
      obtain ⟨enough, same⟩ :=
        @Reader.readTcpStream_haveHeader crates rng _ _ _ some_ (fits data rfl) short
      rw [same] at returned
      obtain rfl := Except.ok.inj (Except.ok.inj returned)
      rw [← List.length_append, ← List.drop_append_of_le_length within] at enough
      rw [← List.drop_append_of_le_length within]
      refine .settle ?_ enough
      rw [List.length_append]
      exact Nat.le_trans within (Nat.le_add_right _ _)

/-- The slice that is offered to a read is not empty, unless the call panics before it. -/
theorem Sound.room (sound : reading.Sound)
    : (∃ panic, ∀ rng read, reading.reader.readTcpStream crates rng read = .error panic)
      ∨ 0 < reading.reader.room := by
  cases sound with
  | @begin bufLen buf received buffered =>
      rcases buffered.growBuffer with ⟨-, panics⟩ | ⟨-, grown, grew, -, room⟩
      · left
        refine ⟨.capacityOverflow, fun rng read => ?_⟩
        simp only [Reader.readTcpStream, Reader.readHeader, panics]
      · right
        simp only [Reader.room, grew]
        omega
  | @haveHeader req received headerSize within short =>
      right
      simp only [Reader.room, PartialHttpReq.withBody, List.length_append,
        List.length_replicate]
      omega

/-- A read that returns nothing neither continues nor completes a request. -/
theorem Sound.some_ (sound : reading.Sound) {rng : Rng} {state : ReadState}
    (returned : reading.reader.readTcpStream crates rng (.ok []) = .ok (.ok state))
    : state = .streamEOF := by
  cases sound with
  | @begin bufLen buf received buffered =>
      rcases buffered.growBuffer with ⟨-, panics⟩ | ⟨-, grown, grew, kept, -⟩
      · simp [Reader.readTcpStream, Reader.readHeader, panics] at returned
      · have slice : sliceFrom grown bufLen = .ok (grown.drop bufLen) := if_pos kept.within
        simp only [Reader.readTcpStream, Reader.readHeader, grew, slice] at returned
        exact (Except.ok.inj (Except.ok.inj returned)).symm
  | haveHeader =>
      simp [Reader.readTcpStream, PartialHttpReq.readTcpStream, sliceFrom,
        PartialHttpReq.withBody] at returned

/-- Every reached reading is sound. Witness: the invariant of runs. -/
theorem Sound.reached (run : Reach (next crates) Fits .new reading) : reading.Sound := by
  refine run.invariant Sound ?_ ?_
  · exact .begin ⟨rfl, rfl, Nat.zero_le _, 0, Nat.zero_le _, List.length_replicate ..⟩
  · intro before call after sound fits taken
    obtain ⟨rng, read⟩ := call
    cases read with
    | error e => cases taken
    | ok data =>
        obtain ⟨reader, continued, rfl⟩ := Option.map_eq_some_iff.mp taken
        have returned := Reader.next_eq_some.mp continued
        by_cases none_ : data = []
        · subst none_
          cases sound.some_ returned
        · cases sound.gives fits none_ returned with
          | partialRead more => exact more

end Reading

/-- However the stream is cut, a reader offers a slice that is not empty. A request it
completes has the size of the reported head and the declared length as the number of bytes
consumed, and the bytes behind the head as its body. A reader that knows the head has room for
the whole body and has not filled it.
-/
theorem reader_sound {crates : Crates} {reading : Reading}
    (run : Reach (Reading.next crates) Reading.Fits .new reading) {rng : Rng} {data : Bytes}
    (fits : reading.Fits ⟨rng, .ok data⟩)
    : ((∃ panic, ∀ rng read, reading.reader.readTcpStream crates rng read = .error panic)
          ∨ 0 < reading.reader.room)
      ∧ (∀ req,
          reading.reader.readTcpStream crates rng (.ok data) = .ok (.ok (.complete req)) →
          ∃ headerSize,
            reading.sizeAfter crates ⟨rng, .ok data⟩ = some headerSize
            ∧ (reading.received ++ data).length = headerSize + req.contentLength
            ∧ req.body = some ((reading.received ++ data).drop headerSize))
      ∧ ∀ req,
          reading.reader.readTcpStream crates rng (.ok data)
            = .ok (.ok (.partialRead (.haveHeader req))) →
          req.body.length = req.contentLength ∧ req.bytesRead < req.contentLength := by
  have sound := Reading.Sound.reached run
  have gives {state : ReadState}
      (returned : reading.reader.readTcpStream crates rng (.ok data) = .ok (.ok state))
      (going : state ≠ .streamEOF)
      : Reading.Gives (reading.received ++ data) (reading.sizeAfter crates ⟨rng, .ok data⟩)
          state := by
    by_cases none_ : data = []
    · subst none_
      exact absurd (sound.some_ returned) going
    · exact sound.gives fits none_ returned
  refine ⟨sound.room, ?_, ?_⟩
  · intro req returned
    cases gives returned (by nofun) with
    | complete known total body => exact ⟨_, known, total, body⟩
  · intro req returned
    exact (gives returned (by nofun)).unfilled

/-- The request of a read that completes it. -/
def completed? : Except Panic (Except HttpError ReadState) → Option HttpRequest
  | .ok (.ok (.complete req)) => some req
  | _ => none

theorem completed?_eq_some {result : Except Panic (Except HttpError ReadState)}
    {req : HttpRequest} (completes : completed? result = some req)
    : result = .ok (.ok (.complete req)) := by
  unfold completed? at completes
  split at completes
  · obtain rfl := Option.some.inj completes
    rfl
  · cases completes

/-- A head cut after its tenth byte, with its body behind the rest of it. -/
theorem reader_sound_cut
    : ∃ reading req headerSize,
        Reading.new.next (.onHead "2") (.of ((headOf "2").take 10)) = some reading
        ∧ reading.reader.readTcpStream (.onHead "2") (ReadCall.of []).rng
            (.ok ((headOf "2").drop 10 ++ [104, 105]))
          = .ok (.ok (.complete req))
        ∧ (headOf "2" ++ [104, 105]).length = headerSize + req.contentLength
        ∧ req.body = some ((headOf "2" ++ [104, 105]).drop headerSize) := by
  let data : Bytes := (headOf "2").drop 10 ++ [104, 105]
  let reader : Reader := .begin 10 (fill (List.replicate 2048 0) 0 ((headOf "2").take 10))
  let reading : Reading := ⟨reader, (headOf "2").take 10, none⟩
  have first : Reading.new.next (.onHead "2") (.of ((headOf "2").take 10)) = some reading := by
    have reads : Reader.new.next (.onHead "2") (.of ((headOf "2").take 10)) = some reader := by
      decide +kernel
    have size : Reading.new.sizeAfter (.onHead "2") (.of ((headOf "2").take 10)) = none := by
      decide +kernel
    have same : Reading.new.reader = Reader.new := rfl
    rw [Reading.next_ok rfl, size, same, reads, Option.map_some]
    congr 1
  have fitsFirst : Reading.new.Fits (.of ((headOf "2").take 10)) := by
    intro data read
    obtain rfl := Except.ok.inj read
    decide +kernel
  have fits : reading.Fits ⟨(ReadCall.of []).rng, .ok data⟩ := by
    intro data read
    obtain rfl := Except.ok.inj read
    decide +kernel
  have whole : reading.received ++ data = headOf "2" ++ [104, 105] := by decide +kernel
  obtain ⟨req, completes⟩
      : ∃ req,
          reader.readTcpStream (.onHead "2") (ReadCall.of []).rng (.ok data)
            = .ok (.ok (.complete req)) := by
    have done
        : (completed? (reader.readTcpStream (.onHead "2") (ReadCall.of []).rng
            (.ok data))).isSome = true := by
      decide +kernel
    obtain ⟨req, completes⟩ := Option.isSome_iff_exists.mp done
    exact ⟨req, completed?_eq_some completes⟩
  obtain ⟨headerSize, -, total, body⟩ :=
    (reader_sound (Reach.start.next fitsFirst first) fits).2.1 req completes
  rw [whole] at total body
  exact ⟨reading, req, headerSize, first, completes, total, body⟩

end Casket
