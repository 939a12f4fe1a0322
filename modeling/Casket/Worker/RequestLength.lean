import Casket.Worker.ReaderRuns
import Mathlib.Data.List.Induction

/-! How the head of a request tells where its body ends. The reader takes the number in the
last `Content-Length` header, in the syntax of the integer parser, and looks at no other
header.
-/

namespace Casket

/-- The headers that give a length. -/
def lengthHeaders (headers : List (String × Bytes)) : List (String × Bytes) :=
  headers.filter fun h => eqIgnoreAsciiCase h.1 "Content-Length"

/-- The number in a header, if its value is made of decimal digits only. -/
def digitsOf (h : String × Bytes) : Option Nat :=
  (fromUtf8 h.2).bind fun value => decimal? value.toList

/-- The number the reader finds in a header. -/
def lengthOf (h : String × Bytes) : Option Nat := (fromUtf8 h.2).bind parseUsize

/-- No server can read the length of the body differently: every length header has the digits
of the length and nothing else, there is no transfer coding, and without a length header
there is no body.
-/
structure Unambiguous (headers : List (String × Bytes)) (contentLength : Nat) : Prop where
  digits : ∀ h ∈ lengthHeaders headers, digitsOf h = some contentLength
  none_ : lengthHeaders headers = [] → contentLength = 0
  noCoding : ∀ h ∈ headers, eqIgnoreAsciiCase h.1 "Transfer-Encoding" = false

/-- No length has a plus sign, no two of them differ, and there is no transfer coding. -/
structure PlainLengths (headers : List (String × Bytes)) : Prop where
  unsigned
    : ∀ h ∈ lengthHeaders headers, ∀ value,
        fromUtf8 h.2 = some value → value.toList.head? ≠ some '+'
  same : ∀ h ∈ lengthHeaders headers, ∀ h' ∈ lengthHeaders headers, lengthOf h = lengthOf h'
  noCoding : ∀ h ∈ headers, eqIgnoreAsciiCase h.1 "Transfer-Encoding" = false

-----------------------------------------------------------------------------------------
-- Numerals
-----------------------------------------------------------------------------------------

/-- A plus sign is no digit. -/
theorem decimal?_plus (digits : List Char) : decimal? ('+' :: digits) = none := by
  have other : ¬ '+'.isDigit := by decide
  simp [decimal?, other]

/-- The integer parser reads digits as a number, and takes nothing else but a plus sign in
front of them.
-/
theorem parseUsize_some {value : String} {n : Nat} (parsed : parseUsize value = some n)
    : value.toList.head? ≠ some '+' ↔ decimal? value.toList = some n := by
  unfold parseUsize at parsed
  simp only at parsed
  split at parsed
  · next digits plus =>
      rw [plus, decimal?_plus]
      simp
  · next digits other =>
      obtain ⟨number, -⟩ := Option.filter_eq_some_iff.mp parsed
      refine iff_of_true ?_ number
      intro plus
      obtain ⟨rest, same⟩ := List.head?_eq_some_iff.mp plus
      exact other rest same

-----------------------------------------------------------------------------------------
-- The length the loop leaves
-----------------------------------------------------------------------------------------

/-- An accepted header that gives a length gives a number. -/
theorem HeaderAccepted.lengthOf {h : String × Bytes} (accepted : HeaderAccepted h)
    (named : eqIgnoreAsciiCase h.1 "Content-Length" = true)
    : ∃ value n, fromUtf8 h.2 = some value ∧ parseUsize value = some n := by
  obtain ⟨value, text, number⟩ := accepted
  obtain ⟨n, parsed⟩ := Option.isSome_iff_exists.mp (number named)
  exact ⟨value, n, text, parsed⟩

/-- The declared length is that of the last length header, by induction on the headers. -/
theorem declaredLength_eq {headers : List (String × Bytes)}
    (accepted : ∀ h ∈ headers, HeaderAccepted h)
    : declaredLength headers = (((lengthHeaders headers).getLast?).bind lengthOf).getD 0 := by
  induction headers using List.reverseRecOn with
  | nil => rfl
  | append_singleton headers h ih =>
      have before := ih fun other member => accepted other (List.mem_append_left _ member)
      have last := accepted h (List.mem_append_right _ (List.mem_singleton_self h))
      rw [declaredLength, List.foldl_append, List.foldl_cons, List.foldl_nil, lengthHeaders,
        List.filter_append]
      cases named : eqIgnoreAsciiCase h.1 "Content-Length" with
      | true =>
          obtain ⟨value, n, text, parsed⟩ := last.lengthOf named
          simp [named, Casket.lengthOf, text, parsed]
      | false =>
          simp only [Bool.false_eq_true, if_false]
          rw [← declaredLength, before]
          simp [named, lengthHeaders]

/-- Headers that are accepted are unambiguous if and only if their lengths are plain. -/
theorem unambiguous_iff {headers : List (String × Bytes)}
    (accepted : ∀ h ∈ headers, HeaderAccepted h)
    : Unambiguous headers (declaredLength headers) ↔ PlainLengths headers := by
  have length := declaredLength_eq accepted
  have each
      : ∀ h ∈ lengthHeaders headers,
          ∃ value n, fromUtf8 h.2 = some value ∧ parseUsize value = some n := by
    intro h member
    obtain ⟨inside, named⟩ := List.mem_filter.mp member
    exact (accepted h inside).lengthOf named
  constructor
  · intro unambiguous
    have number
        : ∀ h ∈ lengthHeaders headers, lengthOf h = some (declaredLength headers) := by
      intro h member
      obtain ⟨value, n, text, parsed⟩ := each h member
      have digits := unambiguous.digits h member
      have unsigned : value.toList.head? ≠ some '+' := by
        intro plus
        obtain ⟨rest, same⟩ := List.head?_eq_some_iff.mp plus
        rw [digitsOf, text, Option.bind_some, same, decimal?_plus] at digits
        cases digits
      have same := (parseUsize_some parsed).mp unsigned
      rw [digitsOf, text, Option.bind_some, same] at digits
      rw [lengthOf, text, Option.bind_some, parsed, digits]
    refine ⟨?_, ?_, unambiguous.noCoding⟩
    · intro h member value text plus
      have digits := unambiguous.digits h member
      obtain ⟨rest, same⟩ := List.head?_eq_some_iff.mp plus
      rw [digitsOf, text, Option.bind_some, same, decimal?_plus] at digits
      cases digits
    · intro h member h' member'
      rw [number h member, number h' member']
  · intro plain
    refine ⟨?_, ?_, plain.noCoding⟩
    · intro h member
      obtain ⟨last, found⟩ : ∃ last, (lengthHeaders headers).getLast? = some last :=
        Option.isSome_iff_exists.mp (by simp [List.ne_nil_of_mem member])
      have inside : last ∈ lengthHeaders headers := List.mem_of_getLast? found
      obtain ⟨value, n, text, parsed⟩ := each h member
      have same := plain.same h member last inside
      have digits := (parseUsize_some parsed).mp (plain.unsigned h member value text)
      rw [length, found, Option.bind_some, ← same, lengthOf, text, Option.bind_some, parsed,
        digitsOf, text, Option.bind_some, digits]
      rfl
    · intro none_
      rw [length, none_]
      rfl

/-- A request that is accepted has the length its head declares without ambiguity if and only
if its length headers are plain.
-/
theorem framing_unambiguous_iff {crates : Crates} {rng : Rng} {request : ParsedRequest}
    {req : PartialHttpReq} (accepted : PartialHttpReq.new crates rng request = .ok (.ok req))
    : Unambiguous request.headers req.contentLength ↔ PlainLengths request.headers := by
  obtain ⟨declared, -, -⟩ := PartialHttpReq.new_spec accepted
  obtain ⟨fields, -, -, looped, -⟩ := PartialHttpReq.new_inv accepted
  rw [declared]
  exact unambiguous_iff (HeadFields.loop_ok_iff.mp ⟨fields, looped⟩)

/-- A request for the root of the host `a`, with some lengths. -/
def lengthsRequest (lengths : List String) : ParsedRequest where
  method := some "GET"
  path := some "/"
  headers := ("Host", utf8 "a") :: lengths.map fun length => ("Content-Length", utf8 length)

/-- The length a new request has. -/
def newLength (request : ParsedRequest) : Option Nat :=
  match PartialHttpReq.new (.onHead "0") (ReadCall.of []).rng request with
  | .ok (.ok req) => some req.contentLength
  | _ => none

theorem newLength_some {request : ParsedRequest} {n : Nat} (new : newLength request = some n)
    : ∃ req,
        PartialHttpReq.new (.onHead "0") (ReadCall.of []).rng request = .ok (.ok req)
        ∧ req.contentLength = n := by
  unfold newLength at new
  split at new
  · next req accepted => exact ⟨req, accepted, Option.some.inj new⟩
  · cases new

/-- The same length twice. -/
theorem framing_unambiguous_twice
    : Unambiguous (lengthsRequest ["2", "2"]).headers 2 := by
  have new : newLength (lengthsRequest ["2", "2"]) = some 2 := by decide +kernel
  obtain ⟨req, accepted, length⟩ := newLength_some new
  rw [← length]
  have two : lengthHeaders (lengthsRequest ["2", "2"]).headers
      = [("Content-Length", utf8 "2"), ("Content-Length", utf8 "2")] := by
    decide +kernel
  refine (framing_unambiguous_iff accepted).mpr ⟨?_, ?_, by decide +kernel⟩
  · intro h member value text
    have same : h = ("Content-Length", utf8 "2") := by simpa [two] using member
    subst same
    have read : fromUtf8 (utf8 "2") = some "2" := by decide +kernel
    obtain rfl := Option.some.inj (read.symm.trans text)
    decide +kernel
  · intro h member h' member'
    have same : h = ("Content-Length", utf8 "2") := by simpa [two] using member
    have same' : h' = ("Content-Length", utf8 "2") := by simpa [two] using member'
    rw [same, same']

/-- Two different lengths are accepted, and the last one counts. -/
theorem framing_ambiguous
    : ¬ ∀ (crates : Crates) (rng : Rng) (request : ParsedRequest) (req : PartialHttpReq),
          PartialHttpReq.new crates rng request = .ok (.ok req) →
          Unambiguous request.headers req.contentLength := by
  intro unambiguous
  have new : newLength (lengthsRequest ["5", "6"]) = some 6 := by decide +kernel
  obtain ⟨req, accepted, length⟩ := newLength_some new
  have digits := (unambiguous _ _ _ _ accepted).digits ("Content-Length", utf8 "5")
  rw [length] at digits
  revert digits
  decide +kernel

end Casket
