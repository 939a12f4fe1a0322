import Casket.Lib.Runs
import Casket.Worker.Reader

/-! Runs of a reader over any sequence of reads. Whatever the cuts, the reader holds exactly
the bytes received so far, in a buffer of a power of two or behind the head of a request.
-/

namespace Casket

open Lib

-----------------------------------------------------------------------------------------
-- The declared length of a body
-----------------------------------------------------------------------------------------

/-- The number in the last `Content-Length` header, 0 where there is none. -/
def declaredLength (headers : List (String × Bytes)) : Nat :=
  headers.foldl
    (fun length h =>
      if eqIgnoreAsciiCase h.1 "Content-Length" then
        ((fromUtf8 h.2).bind parseUsize).getD length
      else
        length)
    0

/-- The text of the last `Host` header. -/
def hostOf (headers : List (String × Bytes)) : Option String :=
  headers.foldl
    (fun host h => if eqIgnoreAsciiCase h.1 "Host" then fromUtf8 h.2 else host)
    none

/-- A header the reader does not refuse: its value is text, and a length is a number. -/
def HeaderAccepted (h : String × Bytes) : Prop :=
  ∃ value,
    fromUtf8 h.2 = some value
    ∧ (eqIgnoreAsciiCase h.1 "Content-Length" → (parseUsize value).isSome)

/-- A head the reader accepts: a known method, headers that are in order, and a host that
makes a URL with the path.
-/
structure Accepted (crates : Crates) (request : ParsedRequest) : Prop where
  method : ∃ method, request.method = some method ∧ (crates.parseMethod method).isSome
  headers : ∀ h ∈ request.headers, HeaderAccepted h
  url
    : ∃ host path target,
        hostOf request.headers = some host
        ∧ request.path = some path
        ∧ url crates host path = .ok target

/-- The loop goes on exactly after a header that is accepted. -/
theorem HeadFields.header_ok_iff {rng : Rng} {self : HeadFields} {h : String × Bytes}
    : (∃ after, self.header rng h = .ok after) ↔ HeaderAccepted h := by
  obtain ⟨name, bytes⟩ := h
  simp only [header, HeaderAccepted]
  rcases fromUtf8 bytes with - | value
  · simp
  · simp only [textHeader, Option.some.injEq, exists_eq_left']
    by_cases named : eqIgnoreAsciiCase name "Content-Length"
    · simp only [named, if_true, forall_true_left]
      rcases parseUsize value with - | length <;> simp
    · simp [named]

/-- What a header the loop accepts sets. -/
theorem HeadFields.header_spec {rng : Rng} {self after : HeadFields}
    {h : String × Bytes} (accepted : self.header rng h = .ok after)
    : ∃ value,
        fromUtf8 h.2 = some value
        ∧ (if eqIgnoreAsciiCase h.1 "Content-Length" then
            parseUsize value
          else
            some self.contentLength)
          = some after.contentLength
        ∧ after.host = (if eqIgnoreAsciiCase h.1 "Host" then some value else self.host)
        ∧ after.headers = self.headers ++ [(h.1, value)]
        ∧ after.context
          = if eqIgnoreAsciiCase h.1 "Traceparent" then
              (parseContext rng value).toOption.or self.context
            else
              self.context := by
  obtain ⟨name, bytes⟩ := h
  unfold header at accepted
  split at accepted
  · cases accepted
  · next value text =>
      unfold textHeader at accepted
      simp only at accepted
      split at accepted
      · cases accepted
      · next length declared =>
          obtain rfl := Except.ok.inj accepted
          by_cases typed : eqIgnoreAsciiCase name "Content-Type" <;>
            simp only [typed, if_true, if_false, Bool.false_eq_true] at declared ⊢ <;>
            exact ⟨value, text, declared, rfl, rfl, rfl⟩

/-- A loop that ends well has accepted its first header. -/
theorem HeadFields.loop_cons {rng : Rng} {self after : HeadFields} {h : String × Bytes}
    {rest : List (String × Bytes)} (accepted : self.loop rng (h :: rest) = .ok after)
    : ∃ between, self.header rng h = .ok between ∧ between.loop rng rest = .ok after := by
  rw [loop] at accepted
  split at accepted
  · cases accepted
  · next between first => exact ⟨between, first, accepted⟩

/-- A header the loop accepts sets the host if it is a `Host`. -/
theorem HeadFields.header_host {rng : Rng} {self after : HeadFields}
    {h : String × Bytes} (accepted : self.header rng h = .ok after)
    : after.host = if eqIgnoreAsciiCase h.1 "Host" then fromUtf8 h.2 else self.host := by
  obtain ⟨value, text, -, host, -⟩ := header_spec accepted
  rw [host, text]

/-- The loop ends well exactly when every header is accepted. Witness: induction on them. -/
theorem HeadFields.loop_ok_iff {rng : Rng} {headers : List (String × Bytes)}
    {self : HeadFields}
    : (∃ after, self.loop rng headers = .ok after) ↔ ∀ h ∈ headers, HeaderAccepted h := by
  induction headers generalizing self with
  | nil => simp [loop]
  | cons h rest ih =>
      rw [List.forall_mem_cons, ← @header_ok_iff rng self h, loop]
      rcases self.header rng h with e | after
      · simp
      · simp [ih]

/-- The loop ends with the last host. Witness: induction on the headers. -/
theorem HeadFields.loop_host {rng : Rng} {headers : List (String × Bytes)}
    {self after : HeadFields} (accepted : self.loop rng headers = .ok after)
    : after.host
      = headers.foldl
          (fun host h => if eqIgnoreAsciiCase h.1 "Host" then fromUtf8 h.2 else host)
          self.host := by
  induction headers generalizing self with
  | nil =>
      obtain rfl := Except.ok.inj accepted
      rfl
  | cons h rest ih =>
      obtain ⟨between, first, accepted⟩ := loop_cons accepted
      rw [ih accepted, List.foldl_cons, header_host first]

/-- A header the loop accepts sets the length if it is a `Content-Length`. -/
theorem HeadFields.header_contentLength {rng : Rng} {self after : HeadFields}
    {h : String × Bytes} (accepted : self.header rng h = .ok after)
    : after.contentLength
      = if eqIgnoreAsciiCase h.1 "Content-Length" then
          ((fromUtf8 h.2).bind parseUsize).getD self.contentLength
        else
          self.contentLength := by
  obtain ⟨value, text, declared, -, -⟩ := header_spec accepted
  split at declared
  · next named => rw [if_pos named, text, Option.bind_some, declared, Option.getD_some]
  · next other => rw [if_neg other, Option.some.inj declared]

/-- The accepted headers set the length they declare. Witness: induction on the headers. -/
theorem HeadFields.loop_contentLength {rng : Rng} {headers : List (String × Bytes)}
    {self after : HeadFields} (accepted : self.loop rng headers = .ok after)
    : after.contentLength
      = headers.foldl
          (fun length h =>
            if eqIgnoreAsciiCase h.1 "Content-Length" then
              ((fromUtf8 h.2).bind parseUsize).getD length
            else
              length)
          self.contentLength := by
  induction headers generalizing self with
  | nil =>
      obtain rfl := Except.ok.inj accepted
      rfl
  | cons h rest ih =>
      obtain ⟨between, first, accepted⟩ := loop_cons accepted
      rw [ih accepted, List.foldl_cons, header_contentLength first]

namespace PartialHttpReq

variable {crates : Crates} {rng : Rng} {request : ParsedRequest} {req : PartialHttpReq}

/-- What an accepted head is made of. -/
theorem new_inv (accepted : new crates rng request = .ok (.ok req))
    : ∃ fields host path,
        HeadFields.new.loop rng request.headers = .ok fields
        ∧ fields.host = some host
        ∧ request.path = some path
        ∧ Casket.url crates host path = .ok req.url
        ∧ req.contentLength = fields.contentLength
        ∧ req.body = []
        ∧ req.bytesRead = 0
        ∧ req.context = fields.context.getD (.new rng)
        ∧ req.headers = fields.headers := by
  unfold new at accepted
  split at accepted
  · cases accepted
  · split at accepted
    · cases accepted
    · split at accepted
      · cases accepted
      · next fields looped =>
          split at accepted
          · cases accepted
          · next host named =>
              split at accepted
              · cases accepted
              · next path found =>
                  split at accepted
                  · cases accepted
                  · next url made =>
                      obtain rfl := Except.ok.inj (Except.ok.inj accepted)
                      exact ⟨fields, host, path, looped, named, found, made, rfl, rfl, rfl,
                        rfl, rfl⟩

/-- A new request has no body yet, and the length its head declares. -/
theorem new_spec (accepted : new crates rng request = .ok (.ok req))
    : req.contentLength = declaredLength request.headers
      ∧ req.body = []
      ∧ req.bytesRead = 0 := by
  obtain ⟨fields, -, -, looped, -, -, -, length, body, read, -⟩ := new_inv accepted
  exact ⟨length.trans (HeadFields.loop_contentLength looped), body, read⟩

/-- A head with a method and a path is accepted, or refused without a panic. -/
theorem new_settles {method path : String} (hasMethod : request.method = some method)
    (hasPath : request.path = some path) (rng : Rng)
    : (Accepted crates request ∧ ∃ req, new crates rng request = .ok (.ok req))
      ∨ (¬ Accepted crates request ∧ ∃ e, new crates rng request = .ok (.error e)) := by
  simp only [new, hasMethod, hasPath]
  rcases known : crates.parseMethod method with - | recognised
  · refine Or.inr ⟨fun accepted => ?_, _, rfl⟩
    obtain ⟨_, same, isSome⟩ := accepted.method
    obtain rfl := Option.some.inj (hasMethod.symm.trans same)
    simp [known] at isSome
  · rcases looped : HeadFields.new.loop rng request.headers with e | fields
    · refine Or.inr ⟨fun accepted => ?_, _, rfl⟩
      obtain ⟨after, done⟩ := (@HeadFields.loop_ok_iff rng _ .new).mpr accepted.headers
      exact nomatch looped.symm.trans done
    · have host : fields.host = hostOf request.headers := HeadFields.loop_host looped
      simp only [host]
      rcases named : hostOf request.headers with - | host
      · refine Or.inr ⟨fun accepted => ?_, _, rfl⟩
        obtain ⟨_, _, _, some_, -⟩ := accepted.url
        exact nomatch named.symm.trans some_
      · simp only
        rcases made : Casket.url crates host path with e | target
        · refine Or.inr ⟨fun accepted => ?_, _, rfl⟩
          obtain ⟨_, _, _, sameHost, samePath, ok⟩ := accepted.url
          obtain rfl := Option.some.inj (named.symm.trans sameHost)
          obtain rfl := Option.some.inj (hasPath.symm.trans samePath)
          exact nomatch made.symm.trans ok
        · refine
            Or.inl ⟨⟨⟨method, hasMethod, ?_⟩, ?_, host, path, target, named, hasPath, made⟩, _, rfl⟩
          · simp [known]
          · exact HeadFields.loop_ok_iff.mp ⟨fields, looped⟩

/-- A parsed head has a method and a path. -/
theorem new_accepted {bytes : Bytes} {headerSize : Nat}
    (parsed : crates.parseRequest bytes = .complete headerSize request) (rng : Rng)
    : (Accepted crates request ∧ ∃ req, new crates rng request = .ok (.ok req))
      ∨ (¬ Accepted crates request ∧ ∃ e, new crates rng request = .ok (.error e)) := by
  obtain ⟨method, hasMethod⟩ := Option.isSome_iff_exists.mp (crates.hasMethod parsed)
  obtain ⟨path, hasPath⟩ := Option.isSome_iff_exists.mp (crates.hasPath parsed)
  exact new_settles hasMethod hasPath rng

/-- A head becomes a request exactly when it is accepted. -/
theorem new_ok_iff (rng : Rng)
    : (∃ req, new crates rng request = .ok (.ok req)) ↔ Accepted crates request := by
  constructor
  · rintro ⟨req, made⟩
    obtain ⟨-, -, path, -, -, hasPath, -⟩ := new_inv made
    rcases hasMethod : request.method with - | method
    · simp only [new, hasMethod] at made
      cases made
    · rcases new_settles hasMethod hasPath rng with ⟨accepted, -⟩ | ⟨-, e, refused⟩
      · exact accepted
      · rw [made] at refused
        cases refused
  · intro accepted
    obtain ⟨method, hasMethod, -⟩ := accepted.method
    obtain ⟨-, path, -, -, hasPath, -⟩ := accepted.url
    exact (new_settles hasMethod hasPath rng).elim And.right fun refused =>
      absurd accepted refused.1

/-- The request with the bytes behind its head in its body. -/
def withBody (req : PartialHttpReq) (rest : Bytes) : PartialHttpReq :=
  { req with
    body := rest ++ List.replicate (req.contentLength - rest.length) 0
    bytesRead := rest.length }

/-- Taking the body: an error when there is too much of it, a panic when its length is more
than a vector can have, and otherwise what is there.
-/
theorem takeBody_spec (fresh : req.body = []) {buffer : Bytes} {headerSize : Nat}
    (within : headerSize ≤ buffer.length)
    : req.takeBody buffer headerSize
      = if req.contentLength < (buffer.drop headerSize).length then
          .ok (.error (.badValue "content-length too large"))
        else if isizeMax < req.contentLength then
          .error .capacityOverflow
        else
          .ok (.ok (req.withBody (buffer.drop headerSize))) := by
  have slice : sliceFrom buffer headerSize = .ok (buffer.drop headerSize) := if_pos within
  simp only [takeBody, slice, fresh, List.length_nil, Nat.zero_add, List.nil_append]
  split
  · rfl
  · next enough =>
      split
      · rfl
      · next small =>
          have front
              : (buffer.drop headerSize).take req.contentLength = buffer.drop headerSize :=
            List.take_of_length_le (Nat.le_of_not_lt enough)
          simp only [resize, small, if_false, front, withBody, List.length_drop]

/-- Reading more of the body. -/
theorem readTcpStream_spec {rest data : Bytes} (some_ : data ≠ [])
    (fits : rest.length + data.length ≤ req.contentLength)
    : (req.withBody rest).readTcpStream (.ok data) = .ok (.ok (req.withBody (rest ++ data))) := by
  have slice
      : sliceFrom (req.withBody rest).body (req.withBody rest).bytesRead
        = .ok (List.replicate (req.contentLength - rest.length) 0) := by
    rw [sliceFrom, if_pos (by simp [withBody])]
    simp [withBody]
  have filled
      : fill (req.withBody rest).body rest.length data
        = (req.withBody (rest ++ data)).body := by
    simp only [fill, withBody, List.take_left, List.length_append]
    rw [← List.drop_drop, List.drop_left, List.drop_replicate]
    have left
        : req.contentLength - rest.length - data.length
          = req.contentLength - (rest.length + data.length) := by
      omega
    rw [left]
  obtain ⟨first, others, rfl⟩ := List.exists_cons_of_ne_nil some_
  have read : (req.withBody rest).bytesRead = rest.length := rfl
  unfold readTcpStream
  rw [slice]
  have more
      : ({ req.withBody rest with
            body := fill (req.withBody rest).body (req.withBody rest).bytesRead (first :: others)
            bytesRead := (req.withBody rest).bytesRead + (first :: others).length }
          : PartialHttpReq)
        = req.withBody (rest ++ first :: others) := by
    rw [read, filled]
    simp [withBody]
  exact congrArg (fun req => Except.ok (Except.ok req)) more

end PartialHttpReq

-----------------------------------------------------------------------------------------
-- What a reader holds
-----------------------------------------------------------------------------------------

/-- The buffer of a reader that looks for a head: its size is a power of two. -/
structure Buffered (bufLen : Nat) (buf received : Bytes) : Prop where
  held : buf.take bufLen = received
  counted : bufLen = received.length
  within : bufLen ≤ buf.length
  size : ∃ doublings ≤ 51, buf.length = 2 ^ (11 + doublings)

/-- A reader that has received some bytes holds them: in its buffer while they are no whole
head, and else in its body behind an accepted head.
-/
inductive Reader.Holds (crates : Crates) (received : Bytes) : Reader → Prop
  | begin {bufLen buf} (buffered : Buffered bufLen buf received)
    (unfinished : received ≠ [] → crates.parseRequest received = .partialHead)
    : Holds crates received (.begin bufLen buf)
  | haveHeader {rng head headerSize request req} (front : head <+: received)
    (parsed : crates.parseRequest head = .complete headerSize request)
    (accepted : PartialHttpReq.new crates rng request = .ok (.ok req))
    (short : (received.drop headerSize).length < req.contentLength)
    (bounded : req.contentLength ≤ isizeMax)
    : Holds crates received (.haveHeader (req.withBody (received.drop headerSize)))

/-- A new reader has received nothing. -/
theorem Reader.Holds.new (crates : Crates) : Reader.new.Holds crates [] :=
  .begin ⟨rfl, rfl, Nat.zero_le _, 0, Nat.zero_le _, List.length_replicate ..⟩
    fun some_ => absurd rfl some_

namespace Buffered

variable {bufLen : Nat} {buf received : Bytes}

/-- Growing the buffer panics exactly where it would ask for 2^63 bytes; else there is room
for 1024 bytes more, and what was received stays.
-/
theorem growBuffer (buffered : Buffered bufLen buf received)
    : (2 ^ 62 - 1024 < bufLen ∧ Reader.growBuffer bufLen buf = .error .capacityOverflow)
      ∨ bufLen ≤ 2 ^ 62 - 1024
        ∧ ∃ grown,
            Reader.growBuffer bufLen buf = .ok grown
            ∧ Buffered bufLen grown received
            ∧ bufLen + 1024 ≤ grown.length := by
  obtain ⟨doublings, few, size⟩ := buffered.size
  have positive : ¬ buf.length < bufLen := Nat.not_lt.mpr buffered.within
  by_cases full : buf.length - bufLen < 1024
  · by_cases last : doublings = 51
    · left
      subst last
      have within := buffered.within
      have beyond : isizeMax < buf.length * 2 := by
        rw [size]
        decide
      refine ⟨by omega, ?_⟩
      simp only [Reader.growBuffer, positive, if_false, full, if_true, resize, beyond]
    · right
      have more : 2 ^ (11 + (doublings + 1)) = 2 ^ (11 + doublings) * 2 := by
        rw [← Nat.add_assoc, Nat.pow_succ]
      have bound : 2 ^ (11 + (doublings + 1)) ≤ 2 ^ 62 :=
        Nat.pow_le_pow_right (by decide) (by omega)
      have large : 2 ^ 11 ≤ 2 ^ (11 + doublings) :=
        Nat.pow_le_pow_right (by decide) (by omega)
      have fits : ¬ isizeMax < buf.length * 2 := by
        rw [isizeMax]
        omega
      have whole : buf.take (buf.length * 2) = buf := List.take_of_length_le (by omega)
      have within : bufLen ≤ buf.length := buffered.within
      refine
        ⟨by omega, buf ++ List.replicate (buf.length * 2 - buf.length) 0, ?_, ?_, ?_⟩
      · simp only [Reader.growBuffer, positive, if_false, full, if_true, resize, fits, whole]
      · refine ⟨?_, buffered.counted, ?_, doublings + 1, by omega, ?_⟩
        · rw [List.take_append_of_le_length within, buffered.held]
        · rw [List.length_append]
          exact Nat.le_trans within (Nat.le_add_right _ _)
        · rw [List.length_append, List.length_replicate, more, ← size]
          omega
      · rw [List.length_append, List.length_replicate]
        omega
  · right
    have bound : 2 ^ (11 + doublings) ≤ 2 ^ 62 := Nat.pow_le_pow_right (by decide) (by omega)
    refine ⟨by omega, buf, ?_, buffered, by omega⟩
    simp only [Reader.growBuffer, positive, if_false, full]

/-- A read into the room left is received behind what there was. -/
theorem receive (buffered : Buffered bufLen buf received) {data : Bytes}
    (fits : bufLen + data.length ≤ buf.length)
    : Buffered (bufLen + data.length) (fill buf bufLen data) (received ++ data) where
  held := by rw [take_fill buffered.within, buffered.held]
  counted := by rw [buffered.counted, List.length_append]
  within := by rw [length_fill fits]; exact fits
  size := by rw [length_fill fits]; exact buffered.size

/-- A buffer has fewer than 2^63 bytes, so less than that was received. -/
theorem length_le (buffered : Buffered bufLen buf received)
    : received.length ≤ isizeMax := by
  obtain ⟨doublings, few, size⟩ := buffered.size
  have most : 2 ^ (11 + doublings) ≤ 2 ^ 62 := Nat.pow_le_pow_right (by decide) (by omega)
  have within := buffered.within
  rw [← buffered.counted, isizeMax]
  omega

end Buffered

-----------------------------------------------------------------------------------------
-- One call of the reader
-----------------------------------------------------------------------------------------

namespace Reader

variable {crates : Crates} {rng : Rng} {received data : Bytes}

/-- A read in search of a head parses all that was received. -/
theorem readTcpStream_begin {bufLen : Nat} {buf : Bytes}
    (buffered : Buffered bufLen buf received) (small : bufLen ≤ 2 ^ 62 - 1024)
    (some_ : data ≠ []) (fits : data.length ≤ (Reader.begin bufLen buf).room)
    : ∃ bufLen' buf',
        Buffered bufLen' buf' (received ++ data)
        ∧ readTcpStream crates rng (.begin bufLen buf) (.ok data)
          = parseHeader crates rng bufLen' buf' := by
  rcases buffered.growBuffer with ⟨large, -⟩ | ⟨-, grown, grew, kept, room⟩
  · omega
  · simp only [Reader.room, grew] at fits
    refine ⟨bufLen + data.length, fill grown bufLen data, kept.receive (by omega), ?_⟩
    have slice : sliceFrom grown bufLen = .ok (grown.drop bufLen) := if_pos kept.within
    obtain ⟨first, others, rfl⟩ := List.exists_cons_of_ne_nil some_
    simp only [readTcpStream, readHeader, grew, slice]

/-- A complete head: its request is checked, and the bytes behind it are its body. -/
theorem parseHeader_complete {bufLen : Nat} {buf : Bytes}
    (buffered : Buffered bufLen buf received) {headerSize : Nat} {request : ParsedRequest}
    (parsed : crates.parseRequest received = .complete headerSize request)
    : parseHeader crates rng bufLen buf
      = match PartialHttpReq.new crates rng request with
        | .error panic => .error panic
        | .ok (.error e) => .ok (.error e)
        | .ok (.ok req) =>
            if req.contentLength < (received.drop headerSize).length then
              .ok (.error (.badValue "content-length too large"))
            else if isizeMax < req.contentLength then
              .error .capacityOverflow
            else
              .ok (.ok (settle (req.withBody (received.drop headerSize)))) := by
  have within : ¬ buf.length < bufLen := Nat.not_lt.mpr buffered.within
  simp only [parseHeader, within, if_false, buffered.held, parsed]
  rcases new : PartialHttpReq.new crates rng request with panic | e | req
  · rfl
  · rfl
  · obtain ⟨-, fresh, -⟩ := PartialHttpReq.new_spec new
    simp only [PartialHttpReq.takeBody_spec fresh (crates.headerSize_le parsed)]
    by_cases beyond : req.contentLength < (received.drop headerSize).length
    · simp only [beyond, if_true]
    · by_cases large : isizeMax < req.contentLength <;>
        simp only [beyond, large, if_false, if_true]

/-- An unfinished head is read on, and an ill-formed one is an error. -/
theorem parseHeader_unfinished {bufLen : Nat} {buf : Bytes}
    (buffered : Buffered bufLen buf received)
    : (crates.parseRequest received = .partialHead →
        parseHeader crates rng bufLen buf = .ok (.ok (.partialRead (.begin bufLen buf))))
      ∧ ∀ e,
          crates.parseRequest received = .error e →
          parseHeader crates rng bufLen buf = .ok (.error (.headerParse e)) := by
  have within : ¬ buf.length < bufLen := Nat.not_lt.mpr buffered.within
  constructor
  · intro parsed
    simp only [parseHeader, within, if_false, buffered.held, parsed]
  · intro e parsed
    simp only [parseHeader, within, if_false, buffered.held, parsed]

/-- A read of the body, which fits the length the head declares. -/
theorem readTcpStream_haveHeader {req : PartialHttpReq} {rest : Bytes} (some_ : data ≠ [])
    (fits : data.length ≤ (Reader.haveHeader (req.withBody rest)).room)
    (short : rest.length < req.contentLength)
    : rest.length + data.length ≤ req.contentLength
      ∧ readTcpStream crates rng (.haveHeader (req.withBody rest)) (.ok data)
        = .ok (.ok (settle (req.withBody (rest ++ data)))) := by
  have within : rest.length + data.length ≤ req.contentLength := by
    simp only [Reader.room, PartialHttpReq.withBody, List.length_append,
      List.length_replicate] at fits
    omega
  refine ⟨within, ?_⟩
  simp only [readTcpStream, PartialHttpReq.readTcpStream_spec some_ within]

/-- A body that is not all there is read on. -/
theorem settle_withBody (req : PartialHttpReq) (rest : Bytes)
    : settle (req.withBody rest)
      = if rest.length = req.contentLength then
          .complete (req.withBody rest).toHttpRequest
        else
          .partialRead (.haveHeader (req.withBody rest)) := by
  have done
      : (req.withBody rest).isDone = decide (rest.length = req.contentLength) :=
    rfl
  by_cases all : rest.length = req.contentLength <;> simp only [settle, done, all, decide_true,
    decide_false, if_true, if_false, Bool.false_eq_true]

end Reader

-----------------------------------------------------------------------------------------
-- Every run of a reader
-----------------------------------------------------------------------------------------

/-- One call: the random numbers it draws, and what its read of the stream returns. -/
structure ReadCall where
  rng : Rng
  read : Except IoError Bytes

namespace Reader

/-- A read returns no more than the slice it is given holds. -/
def Fits (reader : Reader) (call : ReadCall) : Prop :=
  ∀ data, call.read = .ok data → data.length ≤ reader.room

/-- The reader a call leaves to be continued, if it does. -/
def next (crates : Crates) (reader : Reader) (call : ReadCall) : Option Reader :=
  match reader.readTcpStream crates call.rng call.read with
  | .ok (.ok (.partialRead after)) => some after
  | _ => none

/-- At most 2^62 - 1024 bytes are there before a further read for a head, and a head that
is accepted declares a body a vector can hold. Up to that the allocator grants what is asked.
-/
def InBounds (crates : Crates) : Reader → ReadCall → Prop
  | .begin bufLen buf, call =>
      bufLen ≤ 2 ^ 62 - 1024
      ∧ ∀ data headerSize request,
          call.read = .ok data →
          data ≠ [] →
          crates.parseRequest (buf.take bufLen ++ data) = .complete headerSize request →
          Accepted crates request →
          declaredLength request.headers ≤ isizeMax
  | .haveHeader _, _ => True

variable {crates : Crates} {reader after : Reader} {call : ReadCall} {received : Bytes}

/-- A call that finds a whole head returns, unless it is accepted and declares a body that
no vector can hold.
-/
theorem parseHeader_returns {bufLen headerSize : Nat} {buf : Bytes} {request : ParsedRequest}
    (buffered : Buffered bufLen buf received)
    (parsed : crates.parseRequest received = .complete headerSize request) (rng : Rng)
    : ((Accepted crates request → declaredLength request.headers ≤ isizeMax)
        ∧ ∃ result, parseHeader crates rng bufLen buf = .ok result)
      ∨ (Accepted crates request ∧ isizeMax < declaredLength request.headers
        ∧ parseHeader crates rng bufLen buf = .error .capacityOverflow) := by
  rw [parseHeader_complete buffered parsed]
  rcases PartialHttpReq.new_accepted parsed rng with ⟨accepted, req, new⟩ | ⟨refused, e, new⟩
  · obtain ⟨declared, -, -⟩ := PartialHttpReq.new_spec new
    simp only [new, ← declared]
    by_cases beyond : req.contentLength < (received.drop headerSize).length
    · have most := buffered.length_le
      rw [List.length_drop] at beyond
      refine Or.inl ⟨fun _ => by omega, ?_⟩
      simp [beyond]
    · by_cases large : isizeMax < req.contentLength
      · exact Or.inr ⟨accepted, large, by simp only [beyond, large, if_true, if_false]⟩
      · refine Or.inl ⟨fun _ => Nat.le_of_not_lt large, ?_⟩
        simp only [beyond, large, if_false]
        exact ⟨_, rfl⟩
  · exact Or.inl ⟨fun accepted => absurd accepted refused, by simp [new]⟩

/-- A call in bounds returns; otherwise a vector operation panics, and nothing else does. -/
theorem Holds.call_spec (holds : reader.Holds crates received) (fits : reader.Fits call)
    : (reader.InBounds crates call
        ∧ ∃ result, reader.readTcpStream crates call.rng call.read = .ok result)
      ∨ (¬ reader.InBounds crates call
        ∧ reader.readTcpStream crates call.rng call.read = .error .capacityOverflow) := by
  obtain ⟨rng, read⟩ := call
  cases holds with
  | @begin bufLen buf buffered unfinished =>
      rcases buffered.growBuffer with ⟨large, panics⟩ | ⟨small, grown, grew, kept, -⟩
      · refine Or.inr ⟨fun bounds => absurd bounds.1 (Nat.not_le.mpr large), ?_⟩
        simp only [readTcpStream, readHeader, panics]
      · have slice : sliceFrom grown bufLen = .ok (grown.drop bufLen) := if_pos kept.within
        rcases read with e | data
        · refine Or.inl ⟨⟨small, fun _ _ _ got => nomatch got⟩, ?_⟩
          simp [readTcpStream, readHeader, grew, slice]
        · by_cases none_ : data = []
          · subst none_
            refine Or.inl ⟨⟨small, fun _ _ _ got some_ => ?_⟩, ?_⟩
            · exact absurd (Except.ok.inj got).symm some_
            · simp [readTcpStream, readHeader, grew, slice]
          · obtain ⟨bufLen', buf', more, same⟩ :=
              @readTcpStream_begin crates rng _ _ _ _ buffered small none_ (fits data rfl)
            simp only [same, InBounds, buffered.held]
            rcases parsed : crates.parseRequest (received ++ data) with e | - | ⟨size, request⟩
            · refine Or.inl ⟨⟨small, ?_⟩, _, (parseHeader_unfinished more).2 e parsed⟩
              intro _ _ _ got _ whole
              obtain rfl := Except.ok.inj got
              exact nomatch parsed.symm.trans whole
            · refine Or.inl ⟨⟨small, ?_⟩, _, (parseHeader_unfinished more).1 parsed⟩
              intro _ _ _ got _ whole
              obtain rfl := Except.ok.inj got
              exact nomatch parsed.symm.trans whole
            · rcases parseHeader_returns more parsed rng
                with ⟨bounds, returns⟩ | ⟨accepted, large, panics⟩
              · refine Or.inl ⟨⟨small, ?_⟩, returns⟩
                intro _ _ _ got _ whole
                obtain rfl := Except.ok.inj got
                obtain ⟨-, rfl⟩ := ParseResult.complete.inj (parsed.symm.trans whole)
                exact bounds
              · refine Or.inr ⟨fun bounds => ?_, panics⟩
                have most := bounds.2 data size request rfl none_ parsed accepted
                exact absurd most (Nat.not_le.mpr large)
  | @haveHeader _ head headerSize request req front parsed accepted short bounded =>
      refine Or.inl ⟨trivial, ?_⟩
      rcases read with e | data
      · simp [readTcpStream, PartialHttpReq.readTcpStream, sliceFrom, PartialHttpReq.withBody]
      · by_cases none_ : data = []
        · subst none_
          simp [readTcpStream, PartialHttpReq.readTcpStream, sliceFrom,
            PartialHttpReq.withBody]
        · exact ⟨_, (readTcpStream_haveHeader none_ (fits data rfl) short).2⟩

/-- A call is continued exactly when it returns a reader. -/
theorem next_eq_some
    : reader.next crates call = some after
      ↔ reader.readTcpStream crates call.rng call.read = .ok (.ok (.partialRead after)) := by
  unfold next
  constructor
  · intro continued
    split at continued
    · next same => rw [same, Option.some.inj continued]
    · cases continued
  · intro same
    rw [same]

/-- What a call returns holds what was received before and by it: an open reader does, or a
complete request does in its body, behind an accepted head.
-/
inductive Gives (crates : Crates) (received : Bytes) : ReadState → Prop
  | partialRead {later : Reader} (holds : later.Holds crates received)
    : Gives crates received (.partialRead later)
  | complete {rng head headerSize request req} (front : head <+: received)
    (parsed : crates.parseRequest head = .complete headerSize request)
    (new : PartialHttpReq.new crates rng request = .ok (.ok req))
    (whole : (received.drop headerSize).length = req.contentLength)
    : Gives crates received (.complete (req.withBody (received.drop headerSize)).toHttpRequest)

/-- Settling a request that has as much of its body as was received. -/
theorem Gives.settle {rng : Rng} {head : Bytes} {headerSize : Nat} {request : ParsedRequest}
    {req : PartialHttpReq} (front : head <+: received)
    (parsed : crates.parseRequest head = .complete headerSize request)
    (new : PartialHttpReq.new crates rng request = .ok (.ok req))
    (within : (received.drop headerSize).length ≤ req.contentLength)
    (bounded : req.contentLength ≤ isizeMax)
    : Gives crates received (Reader.settle (req.withBody (received.drop headerSize))) := by
  rw [settle_withBody]
  split
  · next whole => exact .complete front parsed new whole
  · next more => exact .partialRead (.haveHeader front parsed new (by omega) bounded)

/-- A read of some bytes gives an error, or a state that holds them. -/
theorem Holds.gives (holds : reader.Holds crates received) {rng : Rng} {data : Bytes}
    (fits : reader.Fits ⟨rng, .ok data⟩) (some_ : data ≠ []) {state : ReadState}
    (returned : reader.readTcpStream crates rng (.ok data) = .ok (.ok state))
    : Gives crates (received ++ data) state := by
  cases holds with
  | @begin bufLen buf buffered unfinished =>
      rcases buffered.growBuffer with ⟨large, panics⟩ | ⟨small, -⟩
      · simp [readTcpStream, readHeader, panics] at returned
      · obtain ⟨bufLen', buf', more, same⟩ :=
          @readTcpStream_begin crates rng _ _ _ _ buffered small some_ (fits data rfl)
        rw [same] at returned
        rcases parsed : crates.parseRequest (received ++ data) with e | - | ⟨size, request⟩
        · rw [(parseHeader_unfinished more).2 e parsed] at returned
          cases returned
        · rw [(parseHeader_unfinished more).1 parsed] at returned
          cases returned
          exact .partialRead (.begin more fun _ => parsed)
        · rw [parseHeader_complete more parsed] at returned
          split at returned
          · cases returned
          · cases returned
          · next req new =>
              split at returned
              · cases returned
              · next enough =>
                  split at returned
                  · cases returned
                  · next small =>
                      obtain rfl := Except.ok.inj (Except.ok.inj returned)
                      exact .settle (List.prefix_refl _) parsed new (by omega) (by omega)
  | @haveHeader _ head headerSize request req front parsed accepted short bounded =>
      obtain ⟨within, same⟩ :=
        @readTcpStream_haveHeader crates rng _ _ _ some_ (fits data rfl) short
      rw [same] at returned
      obtain rfl := Except.ok.inj (Except.ok.inj returned)
      have head_le : headerSize ≤ received.length :=
        Nat.le_trans (crates.headerSize_le parsed) front.length_le
      rw [← List.length_append, ← List.drop_append_of_le_length head_le] at within
      rw [← List.drop_append_of_le_length head_le]
      exact .settle (front.trans (List.prefix_append ..)) parsed accepted within bounded

/-- Nothing but a read of some bytes leaves a reader or completes a request. -/
theorem Holds.read_data (holds : reader.Holds crates received) {state : ReadState}
    (returned : reader.readTcpStream crates call.rng call.read = .ok (.ok state))
    (going : state ≠ .streamEOF)
    : ∃ data, call.read = .ok data ∧ data ≠ [] := by
  obtain ⟨rng, read⟩ := call
  simp only at returned ⊢
  rcases read with e | data
  · exfalso
    cases holds with
    | @begin bufLen buf buffered unfinished =>
        rcases buffered.growBuffer with ⟨-, panics⟩ | ⟨-, grown, grew, kept, -⟩
        · simp [readTcpStream, readHeader, panics] at returned
        · have slice : sliceFrom grown bufLen = .ok (grown.drop bufLen) := if_pos kept.within
          simp [readTcpStream, readHeader, grew, slice] at returned
    | haveHeader =>
        simp [readTcpStream, PartialHttpReq.readTcpStream, sliceFrom,
          PartialHttpReq.withBody] at returned
  · refine ⟨data, rfl, ?_⟩
    rintro rfl
    cases holds with
    | @begin bufLen buf buffered unfinished =>
        rcases buffered.growBuffer with ⟨-, panics⟩ | ⟨-, grown, grew, kept, -⟩
        · simp [readTcpStream, readHeader, panics] at returned
        · have slice : sliceFrom grown bufLen = .ok (grown.drop bufLen) := if_pos kept.within
          simp only [readTcpStream, readHeader, grew, slice] at returned
          exact going (Except.ok.inj (Except.ok.inj returned)).symm
    | haveHeader =>
        simp [readTcpStream, PartialHttpReq.readTcpStream, sliceFrom,
          PartialHttpReq.withBody] at returned

/-- The reader left by a call holds what was received before and by it. -/
theorem Holds.next (holds : reader.Holds crates received) (fits : reader.Fits call)
    (continued : reader.next crates call = some after)
    : ∃ data, call.read = .ok data ∧ data ≠ [] ∧ after.Holds crates (received ++ data) := by
  have returned := next_eq_some.mp continued
  obtain ⟨data, read, some_⟩ := holds.read_data returned (by simp)
  obtain ⟨rng, read_⟩ := call
  obtain rfl : read_ = .ok data := read
  cases holds.gives fits some_ returned with
  | partialRead more => exact ⟨data, rfl, some_, more⟩

/-- Every reached reader holds the bytes received so far. Witness: the invariant of runs. -/
theorem Holds.reached (run : Reach (Reader.next crates) Fits .new reader)
    : ∃ received, reader.Holds crates received := by
  refine run.invariant (fun reader : Reader => ∃ received, reader.Holds crates received)
    ⟨[], .new crates⟩ ?_
  intro before call after ⟨received, holds⟩ fits taken
  obtain ⟨data, -, -, more⟩ := holds.next fits taken
  exact ⟨_, more⟩

end Reader

/-- A call of a reader in any run returns exactly when it is in bounds, and else panics with
a capacity overflow. Witness: what the reader holds decides the call.
-/
theorem reader_returns_iff {crates : Crates} {reader : Reader} {call : ReadCall}
    (run : Reach (Reader.next crates) Reader.Fits .new reader) (fits : reader.Fits call)
    : ((∃ result, reader.readTcpStream crates call.rng call.read = .ok result)
        ↔ reader.InBounds crates call)
      ∧ (¬ reader.InBounds crates call →
          reader.readTcpStream crates call.rng call.read = .error .capacityOverflow) := by
  obtain ⟨received, holds⟩ := Reader.Holds.reached run
  rcases holds.call_spec fits with ⟨bounds, returns⟩ | ⟨beyond, panics⟩
  · exact ⟨iff_of_true returns bounds, fun beyond => absurd bounds beyond⟩
  · refine ⟨iff_of_false ?_ beyond, fun _ => panics⟩
    rintro ⟨result, returns⟩
    exact nomatch panics.symm.trans returns

-----------------------------------------------------------------------------------------
-- The requests a reader delivers
-----------------------------------------------------------------------------------------

/-- A request that some run of a reader completes. -/
def HttpRequest.Delivered (crates : Crates) (req : HttpRequest) : Prop :=
  ∃ (reader : Reader) (call : ReadCall),
    Reach (Reader.next crates) Reader.Fits .new reader
    ∧ reader.Fits call
    ∧ reader.readTcpStream crates call.rng call.read = .ok (.ok (.complete req))

/-- A text of hexadecimal digits. -/
def Hexadecimal (text : String) : Prop := ∀ c ∈ text.toList, c ∈ "0123456789abcdef".toList

/-- An encoding has hexadecimal digits only. -/
theorem hexEncode_hexadecimal (bytes : Bytes) : Hexadecimal (hexEncode bytes) := by
  have digit : ∀ n < 16, n.digitChar ∈ "0123456789abcdef".toList := by decide +kernel
  intro c mem
  rw [hexEncode, String.toList_ofList, List.mem_flatMap] at mem
  obtain ⟨byte, -, mem⟩ := mem
  have small := byte.toNat_lt
  rcases List.mem_cons.mp mem with rfl | mem
  · exact digit _ (by omega)
  · obtain rfl := List.mem_singleton.mp mem
    exact digit _ (by omega)

/-- A trace context that is accepted has a trace id of hexadecimal digits. -/
theorem parseContext_hexadecimal {rng : Rng} {val : String} {context : Context}
    (accepted : parseContext rng val = .ok context)
    : Hexadecimal context.traceId := by
  unfold parseContext at accepted
  split at accepted
  · cases accepted
  · next traceId parentId _ =>
      split at accepted
      · cases accepted
      · split at accepted
        · cases accepted
        · next hex =>
            split at accepted
            · cases accepted
            · obtain rfl := Except.ok.inj accepted
              have all : isHexstring traceId = true := by simpa using hex
              intro c mem
              exact List.contains_iff_mem.mp (List.all_eq_true.mp all c mem)

/-- A header the loop accepts sets the context if it is a `Traceparent` in order. -/
theorem HeadFields.header_context {rng : Rng} {self after : HeadFields}
    {h : String × Bytes} (accepted : self.header rng h = .ok after)
    : after.context
      = if eqIgnoreAsciiCase h.1 "Traceparent" then
          ((fromUtf8 h.2).bind fun value => (parseContext rng value).toOption).or self.context
        else
          self.context := by
  obtain ⟨value, text, -, -, -, context⟩ := header_spec accepted
  rw [context, text, Option.bind_some]

/-- The context found by the loop, if any, has a trace id of hexadecimal digits. Witness:
induction on the headers.
-/
theorem HeadFields.loop_hexadecimal {rng : Rng} {headers : List (String × Bytes)}
    {self after : HeadFields} (accepted : self.loop rng headers = .ok after)
    (before : ∀ context, self.context = some context → Hexadecimal context.traceId)
    : ∀ context, after.context = some context → Hexadecimal context.traceId := by
  induction headers generalizing self with
  | nil =>
      obtain rfl := Except.ok.inj accepted
      exact before
  | cons h rest ih =>
      obtain ⟨between, first, accepted⟩ := loop_cons accepted
      refine ih accepted fun context found => ?_
      rw [header_context first] at found
      split at found
      · rcases Option.or_eq_some_iff.mp found with here | ⟨-, earlier⟩
        · obtain ⟨value, -, parsed⟩ := Option.bind_eq_some_iff.mp here
          rcases ok : parseContext rng value with e | accepted
          · rw [ok] at parsed
            cases parsed
          · rw [ok] at parsed
            obtain rfl := Option.some.inj parsed
            exact parseContext_hexadecimal ok
        · exact before context earlier
      · exact before context found

/-- The trace id of a delivered request has hexadecimal digits only. -/
theorem HttpRequest.Delivered.traceId {crates : Crates} {req : HttpRequest}
    (delivered : req.Delivered crates)
    : Hexadecimal req.context.traceId := by
  obtain ⟨reader, call, run, fits, returned⟩ := delivered
  obtain ⟨received, holds⟩ := Reader.Holds.reached run
  obtain ⟨data, read, some_⟩ := holds.read_data returned (by simp)
  obtain ⟨rng, read_⟩ := call
  obtain rfl : read_ = .ok data := read
  cases holds.gives fits some_ returned with
  | complete front parsed new whole =>
      obtain ⟨fields, -, -, looped, -, -, -, -, -, -, context, -⟩ := PartialHttpReq.new_inv new
      have found := HeadFields.loop_hexadecimal looped (fun _ none_ => nomatch none_)
      simp only [PartialHttpReq.toHttpRequest, PartialHttpReq.withBody, context]
      rcases chosen : fields.context with - | context
      · exact hexEncode_hexadecimal _
      · exact found _ chosen

-----------------------------------------------------------------------------------------
-- Crates that know one head
-----------------------------------------------------------------------------------------

/-- A request for the root of the host `a`, with a body of some declared length. -/
def headOf (contentLength : String) : Bytes :=
  utf8 ("GET / HTTP/1.1\r\nHost: a\r\nContent-Length: " ++ contentLength ++ "\r\n\r\n")

/-- What the crates make of that head: it is whole where it stands in front of the bytes,
and partial where they stop inside it.
-/
def Crates.onHead (contentLength : String) : Crates where
  parseRequest bytes :=
    if (headOf contentLength).isPrefixOf bytes then
      .complete (headOf contentLength).length
        { method := some "GET"
          path := some "/"
          headers := [("Host", utf8 "a"), ("Content-Length", utf8 contentLength)] }
    else if bytes.isPrefixOf (headOf contentLength) then
      .partialHead
    else
      .error "invalid token"
  parseMethod method := if method = "GET" then some method else none
  parseUrl href :=
    if href = "http://a/" then some { href, path := "/", query := none } else none
  headerSize_le := by
    intro bytes headerSize request parsed
    split at parsed
    · next front =>
        obtain ⟨rfl, -⟩ := ParseResult.complete.inj parsed
        exact (List.isPrefixOf_iff_prefix.mp front).length_le
    · split at parsed <;> cases parsed
  hasMethod := by
    intro bytes headerSize request parsed
    split at parsed
    · obtain ⟨-, rfl⟩ := ParseResult.complete.inj parsed
      rfl
    · split at parsed <;> cases parsed
  hasPath := by
    intro bytes headerSize request parsed
    split at parsed
    · obtain ⟨-, rfl⟩ := ParseResult.complete.inj parsed
      rfl
    · split at parsed <;> cases parsed

/-- A read of some bytes, with fixed random numbers. -/
def ReadCall.of (data : Bytes) : ReadCall where
  rng := ⟨List.replicate 16 0, List.replicate 8 0⟩
  read := .ok data

/-- A head cut after its tenth byte, with its body behind the rest of it. -/
theorem reader_returns_iff_cut
    : ∃ reader : Reader,
        Reader.new.next (.onHead "2") (.of ((headOf "2").take 10)) = some reader
        ∧ ∃ result,
            reader.readTcpStream (.onHead "2") (ReadCall.of []).rng
              (.ok ((headOf "2").drop 10 ++ [104, 105]))
            = .ok result := by
  let call : ReadCall := .of ((headOf "2").drop 10 ++ [104, 105])
  let reader : Reader := .begin 10 (fill (List.replicate 2048 0) 0 ((headOf "2").take 10))
  have first : Reader.new.next (.onHead "2") (.of ((headOf "2").take 10)) = some reader := by
    decide +kernel
  have fitsFirst : Reader.new.Fits (.of ((headOf "2").take 10)) := by
    intro data read
    obtain rfl := Except.ok.inj read
    decide +kernel
  have fits : reader.Fits call := by
    intro data read
    obtain rfl := Except.ok.inj read
    decide +kernel
  have parsed
      : (Crates.onHead "2").parseRequest
          ((fill (List.replicate 2048 0) 0 ((headOf "2").take 10)).take 10
            ++ ((headOf "2").drop 10 ++ [104, 105]))
        = .complete (headOf "2").length
            { method := some "GET"
              path := some "/"
              headers := [("Host", utf8 "a"), ("Content-Length", utf8 "2")] } := by
    decide +kernel
  have bounds : reader.InBounds (.onHead "2") call := by
    refine ⟨by decide, ?_⟩
    intro data headerSize request read _ whole _
    obtain rfl := Except.ok.inj read
    obtain ⟨-, rfl⟩ := ParseResult.complete.inj (parsed.symm.trans whole)
    decide +kernel
  exact ⟨reader, first, (reader_returns_iff (Reach.start.next fitsFirst first) fits).1.mpr bounds⟩

/-- A body of 2^63 bytes is declared: the reservation for it panics. -/
theorem contentLength_overflows
    : ¬ ∀ (crates : Crates) (reader : Reader) (call : ReadCall),
        Reach (Reader.next crates) Reader.Fits .new reader →
        reader.Fits call →
        ∃ result, reader.readTcpStream crates call.rng call.read = .ok result := by
  intro returns
  let call : ReadCall := .of (headOf "9223372036854775808")
  have panics
      : Reader.new.readTcpStream (.onHead "9223372036854775808") call.rng call.read
        = .error .capacityOverflow := by
    decide +kernel
  have fits : Reader.new.Fits call := by
    intro data read
    obtain rfl := Except.ok.inj read
    decide +kernel
  obtain ⟨result, ok⟩ := returns _ _ _ .start fits
  exact nomatch panics.symm.trans ok

end Casket
