import Casket.Worker.ReaderRuns

/-! The same bytes cut into reads in two ways. What the reader makes of a cut is compared
with a verdict on the whole stream, which does not know where it was cut.
-/

namespace Casket

open Lib

-----------------------------------------------------------------------------------------
-- Reading a cut stream
-----------------------------------------------------------------------------------------

/-- The result of reading for the first request: where it came, after how many bytes. -/
inductive Outcome where
  | complete (req : HttpRequest) (offset : Nat)
  | failed (error : HttpError) (offset : Nat)
  | stillPartial (offset : Nat)
  | streamEOF (offset : Nat)
  | panicked (panic : Panic)
  deriving DecidableEq, Repr

/-- The panic the reading ended in, if it did. -/
def Outcome.panic? : Outcome → Option Panic
  | .panicked panic => some panic
  | _ => none

/-- A stream cut into reads, each with the random numbers its call draws. -/
abbrev Cut := List (Rng × Bytes)

/-- The bytes of all the reads. -/
def Cut.stream (cut : Cut) : Bytes := (cut.map Prod.snd).flatten

/-- Reads of the given bytes, all with the same random numbers. -/
def Cut.of (reads : List Bytes) : Cut := reads.map fun data => ((ReadCall.of data).rng, data)

@[simp]
theorem Cut.stream_nil : Cut.stream [] = [] := rfl

@[simp]
theorem Cut.stream_cons (rng : Rng) (data : Bytes) (rest : Cut)
    : Cut.stream ((rng, data) :: rest) = data ++ rest.stream :=
  rfl

namespace Reader

/-- Read until something other than a partial state comes, from some offset on. -/
def feed (crates : Crates) : Reader → Nat → Cut → Outcome
  | _, offset, [] => .stillPartial offset
  | reader, offset, (rng, data) :: rest =>
      match reader.readTcpStream crates rng (.ok data) with
      | .error panic => .panicked panic
      | .ok (.error e) => .failed e (offset + data.length)
      | .ok (.ok .streamEOF) => .streamEOF offset
      | .ok (.ok (.complete req)) => .complete req (offset + data.length)
      | .ok (.ok (.partialRead after)) => after.feed crates (offset + data.length) rest

/-- Reads that are not empty and fit the slices they are given. -/
def Cuts (crates : Crates) : Reader → Cut → Prop
  | _, [] => True
  | reader, (rng, data) :: rest =>
      data ≠ []
      ∧ data.length ≤ reader.room
      ∧ match reader.next crates ⟨rng, .ok data⟩ with
        | some after => after.Cuts crates rest
        | none => True

instance Cuts.decidable (crates : Crates) : ∀ reader cut, Decidable (Cuts crates reader cut)
  | _, [] => .isTrue trivial
  | reader, (rng, data) :: rest =>
      haveI : Decidable
          (match reader.next crates ⟨rng, .ok data⟩ with
          | some after => after.Cuts crates rest
          | none => True) :=
        match reader.next crates ⟨rng, .ok data⟩ with
        | some after => Cuts.decidable crates after rest
        | none => .isTrue trivial
      inferInstanceAs
        (Decidable
          (data ≠ []
            ∧ data.length ≤ reader.room
            ∧ match reader.next crates ⟨rng, .ok data⟩ with
              | some after => after.Cuts crates rest
              | none => True))

end Reader

/-- The offset of the first read after which the bytes are no longer a partial head. -/
def headEnd (crates : Crates) : Bytes → Cut → Nat
  | received, [] => received.length
  | received, (_, data) :: rest =>
      match crates.parseRequest (received ++ data) with
      | .partialHead => headEnd crates (received ++ data) rest
      | _ => (received ++ data).length

/-- The read that completes an accepted head goes past the end of its body. -/
def Overruns (crates : Crates) : Bytes → Cut → Prop
  | _, [] => False
  | received, (_, data) :: rest =>
      match crates.parseRequest (received ++ data) with
      | .partialHead => Overruns crates (received ++ data) rest
      | .complete headerSize request =>
          Accepted crates request
          ∧ headerSize + declaredLength request.headers < (received ++ data).length
      | .error _ => False

/-- What the parser says of a whole head, or of a wrong one, it says of every extension. -/
structure Crates.PrefixStable (crates : Crates) : Prop where
  complete
    : ∀ {bytes headerSize request},
        crates.parseRequest bytes = .complete headerSize request →
        ∀ rest, crates.parseRequest (bytes ++ rest) = .complete headerSize request
  error
    : ∀ {bytes e},
        crates.parseRequest bytes = .error e →
        ∀ rest, ∃ e', crates.parseRequest (bytes ++ rest) = .error e'

inductive HttpErrorKind where
  | io
  | headerParse
  | badValue
  deriving DecidableEq, Repr

def HttpError.kind : HttpError → HttpErrorKind
  | .io _ _ => .io
  | .headerParse _ => .headerParse
  | .badValue _ => .badValue

/-- The same request, whatever trace context it was given. -/
structure HttpRequest.Same (left right : HttpRequest) : Prop where
  method : left.method = right.method
  url : left.url = right.url
  headers : left.headers = right.headers
  keepAlive : left.keepAlive = right.keepAlive
  contentType : left.contentType = right.contentType
  contentLength : left.contentLength = right.contentLength
  body : left.body = right.body

/-- The same outcome: a request or a partial state at the same offset, or an error of the
same kind.
-/
def Outcome.Agrees : Outcome → Outcome → Prop
  | .complete left offset, .complete right offset' => left.Same right ∧ offset = offset'
  | .failed left _, .failed right _ => left.kind = right.kind
  | .stillPartial offset, .stillPartial offset' => offset = offset'
  | _, _ => False

instance (left right : HttpRequest) : Decidable (left.Same right) :=
  decidable_of_iff
    (left.method = right.method ∧ left.url = right.url ∧ left.headers = right.headers
      ∧ left.keepAlive = right.keepAlive ∧ left.contentType = right.contentType
      ∧ left.contentLength = right.contentLength ∧ left.body = right.body)
    ⟨fun ⟨method, url, headers, keepAlive, contentType, contentLength, body⟩ =>
        ⟨method, url, headers, keepAlive, contentType, contentLength, body⟩,
      fun ⟨method, url, headers, keepAlive, contentType, contentLength, body⟩ =>
        ⟨method, url, headers, keepAlive, contentType, contentLength, body⟩⟩

instance (left right : Outcome) : Decidable (left.Agrees right) := by
  cases left <;> cases right <;> unfold Outcome.Agrees <;> infer_instance

-----------------------------------------------------------------------------------------
-- The head does not depend on the random numbers
-----------------------------------------------------------------------------------------

namespace HeadFields

/-- The fields the random numbers have no part in. -/
def forget (self : HeadFields) : HeadFields := { self with context := none }

/-- A header changes the other fields alike, whatever the contexts. -/
theorem header_forget {rng rng' : Rng} {left right after : HeadFields} {h : String × Bytes}
    (same : left.forget = right.forget) (ok : left.header rng h = .ok after)
    : ∃ after', right.header rng' h = .ok after' ∧ after.forget = after'.forget := by
  obtain ⟨contentType, host, keepAlive, contentLength, context, headers⟩ := left
  obtain ⟨contentType', host', keepAlive', contentLength', context', headers'⟩ := right
  simp only [forget, mk.injEq] at same
  obtain ⟨rfl, rfl, rfl, rfl, -, rfl⟩ := same
  rcases text : fromUtf8 h.2 with - | value
  · simp only [header, text] at ok
    cases ok
  · simp only [header, text, textHeader] at ok ⊢
    by_cases named : eqIgnoreAsciiCase h.1 "Content-Length"
    · rcases length : parseUsize value with - | length
      · simp only [named, if_true, length] at ok
        cases ok
      · simp only [named, if_true, length] at ok ⊢
        obtain rfl := Except.ok.inj ok
        refine ⟨_, rfl, ?_⟩
        by_cases typed : eqIgnoreAsciiCase h.1 "Content-Type" <;> simp [forget, typed]
    · simp only [named, if_false, Bool.false_eq_true] at ok ⊢
      obtain rfl := Except.ok.inj ok
      refine ⟨_, rfl, ?_⟩
      by_cases typed : eqIgnoreAsciiCase h.1 "Content-Type" <;> simp [forget, typed]

/-- The loop sets the other fields alike. Witness: induction on the headers. -/
theorem loop_forget {rng rng' : Rng} {headers : List (String × Bytes)}
    {left right after : HeadFields} (same : left.forget = right.forget)
    (ok : left.loop rng headers = .ok after)
    : ∃ after', right.loop rng' headers = .ok after' ∧ after.forget = after'.forget := by
  induction headers generalizing left right with
  | nil =>
      obtain rfl := Except.ok.inj ok
      exact ⟨right, rfl, same⟩
  | cons h rest ih =>
      obtain ⟨between, first, later⟩ := loop_cons ok
      obtain ⟨between', first', same'⟩ := @header_forget rng rng' _ _ _ _ same first
      obtain ⟨after', looped, forgotten⟩ := ih same' later
      exact ⟨after', by rw [loop, first']; exact looped, forgotten⟩

end HeadFields

/-- Two requests made of one accepted head differ in their contexts at most. -/
theorem PartialHttpReq.new_same {crates : Crates} {rng rng' : Rng} {request : ParsedRequest}
    {req req' : PartialHttpReq} (new : new crates rng request = .ok (.ok req))
    (new' : PartialHttpReq.new crates rng' request = .ok (.ok req'))
    : req' = { req with context := req'.context } := by
  unfold PartialHttpReq.new at new new'
  rcases named : request.method with - | method
  · simp only [named] at new
    cases new
  · simp only [named] at new new'
    rcases known : crates.parseMethod method with - | method
    · simp only [known] at new
      cases new
    · simp only [known] at new new'
      rcases looped : HeadFields.new.loop rng request.headers with e | fields
      · simp only [looped] at new
        cases new
      · obtain ⟨fields', looped', forgotten⟩ :=
          @HeadFields.loop_forget rng rng' _ _ _ _ rfl looped
        obtain ⟨contentType, host, keepAlive, contentLength, context, headers⟩ := fields
        obtain ⟨contentType', host', keepAlive', contentLength', context', headers'⟩ := fields'
        simp only [HeadFields.forget, HeadFields.mk.injEq] at forgotten
        obtain ⟨rfl, rfl, rfl, rfl, -, rfl⟩ := forgotten
        simp only [looped, looped'] at new new'
        split at new
        · cases new
        · split at new
          · cases new
          · next path given =>
              split at new
              · cases new
              · next url made =>
                  simp only [given, made] at new'
                  obtain rfl := Except.ok.inj (Except.ok.inj new)
                  obtain rfl := Except.ok.inj (Except.ok.inj new')
                  rfl

-----------------------------------------------------------------------------------------
-- What a head is refused for
-----------------------------------------------------------------------------------------

namespace HeadFields

variable {rng : Rng} {self : HeadFields} {e : HttpError}

/-- A header is refused for its value. -/
theorem header_kind {h : String × Bytes} (failed : self.header rng h = .error e)
    : e.kind = .badValue := by
  unfold header at failed
  split at failed
  · cases failed
    rfl
  · unfold textHeader at failed
    simp only at failed
    split at failed
    · cases failed
      rfl
    · cases failed

/-- Headers are refused for the value of one of them. Witness: induction on them. -/
theorem loop_kind {headers : List (String × Bytes)} (failed : self.loop rng headers = .error e)
    : e.kind = .badValue := by
  induction headers generalizing self with
  | nil => cases failed
  | cons h rest ih =>
      rw [loop] at failed
      split at failed
      · next first =>
          cases failed
          exact header_kind first
      · exact ih failed

end HeadFields

/-- A URL is refused as a bad value. -/
theorem url_kind {crates : Crates} {host path : String} {e : HttpError}
    (failed : url crates host path = .error e)
    : e.kind = .badValue := by
  unfold url at failed
  repeat' split at failed
  all_goals cases failed
  all_goals rfl

/-- A head is refused for a value that is wrong, and for nothing else. -/
theorem PartialHttpReq.new_kind {crates : Crates} {rng : Rng} {request : ParsedRequest}
    {e : HttpError} (refused : new crates rng request = .ok (.error e))
    : e.kind = .badValue := by
  unfold new at refused
  split at refused
  · cases refused
  · split at refused
    · cases refused
      rfl
    · split at refused
      · next looped =>
          cases refused
          exact HeadFields.loop_kind looped
      · split at refused
        · cases refused
          rfl
        · split at refused
          · cases refused
          · split at refused
            · next made =>
                cases refused
                exact url_kind made
            · cases refused

-----------------------------------------------------------------------------------------
-- The verdict on a stream
-----------------------------------------------------------------------------------------

/-- What the whole stream allows as an outcome, given whether the read that completes the
head overruns the body, and where the first read that does not leave a partial head ends.
-/
inductive Verdict (crates : Crates) (stream : Bytes) (overruns : Prop) (decided : Nat)
    : Outcome → Prop
  | stillHead (unfinished : stream ≠ [] → crates.parseRequest stream = .partialHead)
    : Verdict crates stream overruns decided (.stillPartial stream.length)
  | malformed {e e'} (some_ : stream ≠ []) (parsed : crates.parseRequest stream = .error e)
    : Verdict crates stream overruns decided (.failed (.headerParse e') decided)
  | refused {headerSize request e} (some_ : stream ≠ [])
    (parsed : crates.parseRequest stream = .complete headerSize request)
    (refused : ¬ Accepted crates request) (kind : e.kind = .badValue)
    : Verdict crates stream overruns decided (.failed e decided)
  | overrun {headerSize request} (some_ : stream ≠ [])
    (parsed : crates.parseRequest stream = .complete headerSize request)
    (accepted : Accepted crates request) (beyond : overruns)
    : Verdict crates stream overruns decided
        (.failed (.badValue "content-length too large") decided)
  | stillBody {headerSize request} (some_ : stream ≠ [])
    (parsed : crates.parseRequest stream = .complete headerSize request)
    (accepted : Accepted crates request) (within : ¬ overruns)
    (short : stream.length < headerSize + declaredLength request.headers)
    : Verdict crates stream overruns decided (.stillPartial stream.length)
  | complete {headerSize request rng req} (some_ : stream ≠ [])
    (parsed : crates.parseRequest stream = .complete headerSize request)
    (new : PartialHttpReq.new crates rng request = .ok (.ok req))
    (accepted : Accepted crates request) (within : ¬ overruns)
    (enough : headerSize + declaredLength request.headers ≤ stream.length)
    : Verdict crates stream overruns decided
        (.complete
          (req.withBody ((stream.drop headerSize).take req.contentLength)).toHttpRequest
          (headerSize + declaredLength request.headers))

namespace Reader

variable {crates : Crates} {received : Bytes}

/-- From behind the head on, the body is read to its end or to the end of the stream.
Witness: induction on the reads, none of which goes past the body.
-/
theorem feed_haveHeader {req : PartialHttpReq} {rest : Bytes} {cut : Cut} (offset : Nat)
    (short : rest.length < req.contentLength)
    (cuts : (Reader.haveHeader (req.withBody rest)).Cuts crates cut)
    : feed crates (.haveHeader (req.withBody rest)) offset cut
      = if req.contentLength ≤ rest.length + cut.stream.length then
          .complete (req.withBody ((rest ++ cut.stream).take req.contentLength)).toHttpRequest
            (offset + (req.contentLength - rest.length))
        else
          .stillPartial (offset + cut.stream.length) := by
  induction cut generalizing rest offset with
  | nil =>
      have open_ : ¬ req.contentLength ≤ rest.length + (Cut.stream []).length := by
        simp only [Cut.stream_nil, List.length_nil]
        omega
      rw [if_neg open_]
      rfl
  | cons read later ih =>
      obtain ⟨rng, data⟩ := read
      obtain ⟨some_, fits, onward⟩ := cuts
      obtain ⟨within, same⟩ := @readTcpStream_haveHeader crates rng _ _ _ some_ fits short
      rw [settle_withBody, List.length_append] at same
      by_cases all : rest.length + data.length = req.contentLength
      · rw [if_pos all] at same
        have front
            : (rest ++ (data ++ Cut.stream later)).take req.contentLength = rest ++ data := by
          rw [← List.append_assoc, ← all, ← List.length_append, List.take_left]
        simp only [feed, same, Cut.stream_cons, List.length_append]
        rw [if_pos (by omega), front]
        simp only [Outcome.complete.injEq, true_and]
        omega
      · rw [if_neg all] at same
        have more : (rest ++ data).length < req.contentLength := by
          rw [List.length_append]
          omega
        rw [next_eq_some.mpr same] at onward
        simp only [feed, same, Cut.stream_cons]
        rw [ih _ more onward, List.append_assoc]
        simp only [List.length_append]
        by_cases ends
            : req.contentLength ≤ rest.length + (data.length + (Cut.stream later).length)
        · rw [if_pos ends, if_pos (by omega)]
          simp only [Outcome.complete.injEq, true_and]
          omega
        · rw [if_neg ends, if_neg (by omega), Nat.add_assoc]

/-- What a reader makes of a cut stream is the verdict on the stream. Witness: induction on
the reads while they leave a partial head.
-/
theorem feed_verdict (stable : crates.PrefixStable) {bufLen : Nat} {buf : Bytes} {cut : Cut}
    (buffered : Buffered bufLen buf received)
    (unfinished : received ≠ [] → crates.parseRequest received = .partialHead)
    (cuts : (Reader.begin bufLen buf).Cuts crates cut)
    (calm : (feed crates (.begin bufLen buf) received.length cut).panic? = none)
    : Verdict crates (received ++ cut.stream) (Overruns crates received cut)
        (headEnd crates received cut)
        (feed crates (.begin bufLen buf) received.length cut) := by
  induction cut generalizing received bufLen buf with
  | nil =>
      rw [Cut.stream_nil, List.append_nil]
      exact .stillHead unfinished
  | cons read later ih =>
      obtain ⟨rng, data⟩ := read
      obtain ⟨some_, fits, onward⟩ := cuts
      have nonempty : received ++ (data ++ Cut.stream later) ≠ [] := by
        simp [some_]
      rw [Cut.stream_cons]
      rcases buffered.growBuffer with ⟨large, panics⟩ | ⟨small, -⟩
      · simp only [feed, readTcpStream, readHeader, panics, Outcome.panic?] at calm
        cases calm
      · obtain ⟨bufLen', buf', more, same⟩ :=
          @readTcpStream_begin crates rng _ _ _ _ buffered small some_ fits
        have parseOn := List.append_assoc received data (Cut.stream later)
        rcases parsed : crates.parseRequest (received ++ data) with e | - | ⟨size, request⟩
        · rw [(parseHeader_unfinished more).2 e parsed] at same
          obtain ⟨e', all⟩ := stable.error parsed (Cut.stream later)
          rw [parseOn] at all
          simp only [feed, same, headEnd, parsed, List.length_append]
          exact .malformed nonempty all
        · rw [(parseHeader_unfinished more).1 parsed] at same
          rw [next_eq_some.mpr same] at onward
          have later_ := ih more (fun _ => parsed) onward
          rw [List.length_append, parseOn] at later_
          simp only [feed, same] at calm
          simp only [feed, same, headEnd, Overruns, parsed]
          exact later_ calm
        · have all := stable.complete parsed (Cut.stream later)
          rw [parseOn] at all
          have head_le := crates.headerSize_le parsed
          rw [parseHeader_complete more parsed] at same
          rcases PartialHttpReq.new_accepted parsed rng
            with ⟨accepted, req, new⟩ | ⟨refused, e, new⟩
          · obtain ⟨declared, -, -⟩ := PartialHttpReq.new_spec new
            simp only [new] at same
            by_cases beyond : req.contentLength < ((received ++ data).drop size).length
            · rw [if_pos beyond] at same
              simp only [feed, same, headEnd, Overruns, parsed, ← List.length_append]
              refine .overrun nonempty all accepted ⟨accepted, ?_⟩
              rw [List.length_drop] at beyond
              omega
            · rw [if_neg beyond] at same
              have within
                  : ¬ (Accepted crates request
                      ∧ size + declaredLength request.headers < (received ++ data).length) := by
                rintro ⟨-, longer⟩
                rw [List.length_drop] at beyond
                omega
              by_cases large : isizeMax < req.contentLength
              · rw [if_pos large] at same
                simp only [feed, same, Outcome.panic?] at calm
                cases calm
              · rw [if_neg large, settle_withBody] at same
                have behind
                    : (received ++ (data ++ Cut.stream later)).drop size
                      = (received ++ data).drop size ++ Cut.stream later := by
                  rw [← List.append_assoc, List.drop_append_of_le_length head_le]
                have dropped := List.length_drop (i := size) (l := received ++ data)
                by_cases whole : ((received ++ data).drop size).length = req.contentLength
                · rw [if_pos whole] at same
                  have body
                      : ((received ++ (data ++ Cut.stream later)).drop size).take
                          req.contentLength
                        = (received ++ data).drop size := by
                    rw [behind, ← whole, List.take_left]
                  have offset
                      : received.length + data.length
                        = size + declaredLength request.headers := by
                    rw [← List.length_append]
                    omega
                  simp only [feed, same, headEnd, Overruns, parsed, offset]
                  rw [← body]
                  refine .complete nonempty all new accepted within ?_
                  rw [← List.append_assoc, List.length_append]
                  omega
                · rw [if_neg whole] at same
                  rw [next_eq_some.mpr same] at onward
                  simp only [feed, same, headEnd, Overruns, parsed, ← List.length_append]
                  rw [feed_haveHeader _ (by omega) onward, ← behind, ← parseOn]
                  by_cases ends
                      : req.contentLength
                        ≤ ((received ++ data).drop size).length + (Cut.stream later).length
                  · have offset
                        : (received ++ data).length
                            + (req.contentLength - ((received ++ data).drop size).length)
                          = size + declaredLength request.headers := by
                      omega
                    rw [if_pos ends, offset]
                    refine .complete (parseOn ▸ nonempty) (parseOn ▸ all) new accepted within ?_
                    rw [List.length_append]
                    omega
                  · rw [if_neg ends, ← List.length_append]
                    refine .stillBody (parseOn ▸ nonempty) (parseOn ▸ all) accepted within ?_
                    rw [List.length_append]
                    omega
          · simp only [new] at same
            simp only [feed, same, headEnd, parsed, List.length_append]
            exact .refused nonempty all refused (PartialHttpReq.new_kind new)

end Reader

-----------------------------------------------------------------------------------------
-- Two cuts of one stream
-----------------------------------------------------------------------------------------

/-- Two verdicts on one stream agree when both or none of the cuts overran. Witness: cases
on what the parser says of the stream.
-/
theorem Verdict.agrees {crates : Crates} {stream : Bytes} {overruns overruns' : Prop}
    {decided decided' : Nat} {left right : Outcome}
    (first : Verdict crates stream overruns decided left)
    (second : Verdict crates stream overruns' decided' right) (same : overruns ↔ overruns')
    : left.Agrees right := by
  cases first with
  | stillHead unfinished =>
      cases second with
      | stillHead | stillBody => rfl
      | malformed some_ parsed => exact nomatch (unfinished some_).symm.trans parsed
      | refused some_ parsed => exact nomatch (unfinished some_).symm.trans parsed
      | overrun some_ parsed => exact nomatch (unfinished some_).symm.trans parsed
      | complete some_ parsed => exact nomatch (unfinished some_).symm.trans parsed
  | malformed some_ parsed =>
      cases second with
      | malformed => rfl
      | stillHead unfinished => exact nomatch (unfinished some_).symm.trans parsed
      | refused _ parsed' => exact nomatch parsed.symm.trans parsed'
      | overrun _ parsed' => exact nomatch parsed.symm.trans parsed'
      | stillBody _ parsed' => exact nomatch parsed.symm.trans parsed'
      | complete _ parsed' => exact nomatch parsed.symm.trans parsed'
  | refused some_ parsed refused kind =>
      cases second with
      | refused _ _ _ kind' => exact kind.trans kind'.symm
      | overrun => exact kind
      | stillHead unfinished => exact nomatch (unfinished some_).symm.trans parsed
      | malformed _ parsed' => exact nomatch parsed.symm.trans parsed'
      | stillBody _ parsed' accepted =>
          obtain ⟨-, rfl⟩ := ParseResult.complete.inj (parsed.symm.trans parsed')
          exact absurd accepted refused
      | complete _ parsed' _ accepted =>
          obtain ⟨-, rfl⟩ := ParseResult.complete.inj (parsed.symm.trans parsed')
          exact absurd accepted refused
  | overrun some_ parsed accepted beyond =>
      cases second with
      | refused _ _ _ kind => exact kind.symm
      | overrun => rfl
      | stillHead unfinished => exact nomatch (unfinished some_).symm.trans parsed
      | malformed _ parsed' => exact nomatch parsed.symm.trans parsed'
      | stillBody _ _ _ within => exact absurd (same.mp beyond) within
      | complete _ _ _ _ within => exact absurd (same.mp beyond) within
  | stillBody some_ parsed accepted within short =>
      cases second with
      | stillHead | stillBody => rfl
      | malformed _ parsed' => exact nomatch parsed.symm.trans parsed'
      | refused _ parsed' refused =>
          obtain ⟨-, rfl⟩ := ParseResult.complete.inj (parsed.symm.trans parsed')
          exact absurd accepted refused
      | overrun _ _ _ beyond => exact absurd (same.mpr beyond) within
      | complete _ parsed' _ _ _ enough =>
          obtain ⟨rfl, rfl⟩ := ParseResult.complete.inj (parsed.symm.trans parsed')
          exact absurd short (Nat.not_lt.mpr enough)
  | complete some_ parsed new accepted within enough =>
      cases second with
      | stillHead unfinished => exact nomatch (unfinished some_).symm.trans parsed
      | malformed _ parsed' => exact nomatch parsed.symm.trans parsed'
      | refused _ parsed' refused =>
          obtain ⟨-, rfl⟩ := ParseResult.complete.inj (parsed.symm.trans parsed')
          exact absurd accepted refused
      | overrun _ _ _ beyond => exact absurd (same.mpr beyond) within
      | stillBody _ parsed' _ _ short =>
          obtain ⟨rfl, rfl⟩ := ParseResult.complete.inj (parsed.symm.trans parsed')
          exact absurd short (Nat.not_lt.mpr enough)
      | complete _ parsed' new' =>
          obtain ⟨rfl, rfl⟩ := ParseResult.complete.inj (parsed.symm.trans parsed')
          have made := PartialHttpReq.new_same new new'
          exact ⟨by rw [made]; exact ⟨rfl, rfl, rfl, rfl, rfl, rfl, rfl⟩, rfl⟩

/-- A cut that overruns is of a stream that goes on behind its first request. Witness:
induction on the reads while they leave a partial head.
-/
theorem Overruns.goes_on {crates : Crates} (stable : crates.PrefixStable) {received : Bytes}
    {cut : Cut} (overruns : Overruns crates received cut)
    : ∃ headerSize request,
        crates.parseRequest (received ++ cut.stream) = .complete headerSize request
        ∧ headerSize + declaredLength request.headers < (received ++ cut.stream).length := by
  induction cut generalizing received with
  | nil => cases overruns
  | cons read rest ih =>
      obtain ⟨rng, data⟩ := read
      rw [Cut.stream_cons, ← List.append_assoc]
      simp only [Overruns] at overruns
      split at overruns
      · exact ih overruns
      · next headerSize request parsed =>
          refine ⟨headerSize, request, stable.complete parsed _, ?_⟩
          rw [List.length_append]
          omega
      · cases overruns

/-- An error comes with the first read that does not leave a partial head. -/
theorem Verdict.failed_offset {crates : Crates} {stream : Bytes} {overruns : Prop}
    {decided offset : Nat} {e : HttpError}
    (verdict : Verdict crates stream overruns decided (.failed e offset))
    : offset = decided := by
  cases verdict <;> rfl

/-- Two cuts of one stream, neither of which makes the reader panic, give the same outcome
when the read that completes the head overruns the body in both of them or in none. An error
comes with the first read that does not leave a partial head.
-/
theorem cuts_agree {crates : Crates} (stable : crates.PrefixStable) {first second : Cut}
    (cutFirst : Reader.new.Cuts crates first) (cutSecond : Reader.new.Cuts crates second)
    (same : first.stream = second.stream)
    (calmFirst : (Reader.new.feed crates 0 first).panic? = none)
    (calmSecond : (Reader.new.feed crates 0 second).panic? = none)
    (overruns : Overruns crates [] first ↔ Overruns crates [] second)
    : (Reader.new.feed crates 0 first).Agrees (Reader.new.feed crates 0 second)
      ∧ (∀ e offset,
          Reader.new.feed crates 0 first = .failed e offset → offset = headEnd crates [] first)
      ∧ ∀ e offset,
          Reader.new.feed crates 0 second = .failed e offset →
          offset = headEnd crates [] second := by
  have fresh : Buffered 0 (List.replicate 2048 0) [] :=
    ⟨rfl, rfl, Nat.zero_le _, 0, Nat.zero_le _, List.length_replicate ..⟩
  have one := Reader.feed_verdict stable fresh (fun some_ => absurd rfl some_) cutFirst calmFirst
  have other :=
    Reader.feed_verdict stable fresh (fun some_ => absurd rfl some_) cutSecond calmSecond
  rw [List.nil_append] at one other
  refine ⟨Verdict.agrees one (same ▸ other) overruns, ?_, ?_⟩
  · intro e offset failed
    exact Verdict.failed_offset (failed ▸ one)
  · intro e offset failed
    exact Verdict.failed_offset (failed ▸ other)

/-- The crates that know one head are stable. -/
theorem Crates.onHead_prefixStable (contentLength : String)
    : (Crates.onHead contentLength).PrefixStable where
  complete := by
    intro bytes headerSize request parsed rest
    simp only [onHead] at parsed ⊢
    split at parsed
    · next front =>
        have longer := (List.isPrefixOf_iff_prefix.mp front).trans (List.prefix_append bytes rest)
        rw [if_pos (List.isPrefixOf_iff_prefix.mpr longer)]
        exact parsed
    · split at parsed <;> cases parsed
  error := by
    intro bytes e parsed rest
    simp only [onHead] at parsed ⊢
    split at parsed
    · cases parsed
    · next behind =>
        split at parsed
        · cases parsed
        · next ahead =>
            rw [List.isPrefixOf_iff_prefix] at behind ahead
            rw [if_neg, if_neg]
            · exact ⟨_, rfl⟩
            · rw [List.isPrefixOf_iff_prefix]
              exact fun front => ahead ((List.prefix_append bytes rest).trans front)
            · rw [List.isPrefixOf_iff_prefix]
              intro front
              rcases List.prefix_or_prefix_of_prefix front (List.prefix_append bytes rest)
                with inside | inside
              · exact behind inside
              · exact ahead inside

/-- The head and the body cut in the middle of each, against the whole in one read. -/
theorem cuts_agree_hi
    : ∃ first second : Cut,
        first.length = 3
        ∧ second.length = 1
        ∧ first.stream = headOf "2" ++ [104, 105]
        ∧ (Reader.new.feed (.onHead "2") 0 first).Agrees
            (Reader.new.feed (.onHead "2") 0 second) := by
  have cuts
      : ∃ first second : Cut,
          (first.length = 3 ∧ Reader.new.Cuts (.onHead "2") first
            ∧ first.stream = headOf "2" ++ [104, 105]
            ∧ (Reader.new.feed (.onHead "2") 0 first).panic? = none)
          ∧ second.length = 1 ∧ Reader.new.Cuts (.onHead "2") second
          ∧ second.stream = headOf "2" ++ [104, 105]
          ∧ (Reader.new.feed (.onHead "2") 0 second).panic? = none :=
    ⟨.of [(headOf "2").take 10, (headOf "2").drop 10 ++ [104], [105]],
      .of [headOf "2" ++ [104, 105]], by decide +kernel⟩
  obtain ⟨first, second, ⟨three, cutFirst, streamFirst, calmFirst⟩, one, cutSecond,
    streamSecond, calmSecond⟩ := cuts
  have parsed
      : (Crates.onHead "2").parseRequest (headOf "2" ++ [104, 105])
        = .complete (headOf "2").length
            { method := some "GET"
              path := some "/"
              headers := [("Host", utf8 "a"), ("Content-Length", utf8 "2")] } := by
    decide +kernel
  have within (cut : Cut) (stream : cut.stream = headOf "2" ++ [104, 105])
      : ¬ Overruns (.onHead "2") [] cut := by
    intro overruns
    obtain ⟨headerSize, request, parsed', beyond⟩ :=
      overruns.goes_on (Crates.onHead_prefixStable "2")
    rw [List.nil_append, stream] at parsed' beyond
    obtain ⟨rfl, rfl⟩ := ParseResult.complete.inj (parsed.symm.trans parsed')
    exact absurd beyond (by decide +kernel)
  exact ⟨first, second, three, one, streamFirst,
    (cuts_agree (Crates.onHead_prefixStable "2") cutFirst cutSecond
      (streamFirst.trans streamSecond.symm) calmFirst calmSecond
      (iff_of_false (within first streamFirst) (within second streamSecond))).1⟩

/-- The same bytes are a request when they are cut behind it, and an error when they are read
at once; and an error comes later when more is read with it.
-/
theorem cuts_disagree
    : (¬ ∀ (crates : Crates) (first second : Cut),
        crates.PrefixStable →
        Reader.new.Cuts crates first →
        Reader.new.Cuts crates second →
        first.stream = second.stream →
        (Reader.new.feed crates 0 first).Agrees (Reader.new.feed crates 0 second))
      ∧ ¬ ∀ (crates : Crates) (first second : Cut) (e e' : HttpError) (offset offset' : Nat),
        crates.PrefixStable →
        Reader.new.Cuts crates first →
        Reader.new.Cuts crates second →
        first.stream = second.stream →
        Reader.new.feed crates 0 first = .failed e offset →
        Reader.new.feed crates 0 second = .failed e' offset' →
        offset = offset' := by
  have stable := Crates.onHead_prefixStable "2"
  constructor
  · have cuts
        : ∃ first second : Cut,
            Reader.new.Cuts (.onHead "2") first ∧ Reader.new.Cuts (.onHead "2") second
            ∧ first.stream = second.stream
            ∧ ¬ (Reader.new.feed (.onHead "2") 0 first).Agrees
                (Reader.new.feed (.onHead "2") 0 second) :=
      ⟨.of [headOf "2" ++ [104, 105], [71]], .of [headOf "2" ++ [104, 105, 71]],
        by decide +kernel⟩
    obtain ⟨first, second, cutFirst, cutSecond, same, disagree⟩ := cuts
    exact fun agree => disagree (agree _ first second stable cutFirst cutSecond same)
  · have cuts
        : ∃ first second : Cut,
            Reader.new.Cuts (.onHead "2") first ∧ Reader.new.Cuts (.onHead "2") second
            ∧ first.stream = second.stream
            ∧ Reader.new.feed (.onHead "2") 0 first
              = .failed (.headerParse "invalid token") 1
            ∧ Reader.new.feed (.onHead "2") 0 second
              = .failed (.headerParse "invalid token") 2 :=
      ⟨.of [[0], [65]], .of [[0, 65]], by decide +kernel⟩
    obtain ⟨first, second, cutFirst, cutSecond, same, early, late⟩ := cuts
    intro agree
    exact absurd (agree _ first second _ _ 1 2 stable cutFirst cutSecond same early late)
      (by decide)

end Casket
