import Casket.Worker.Delivery

/-! What an application can do to the head of a response. Its status goes through a parser;
the names and values of its headers and the text of its exception are written as they are.
-/

namespace Casket

-----------------------------------------------------------------------------------------
-- Texts that break no line
-----------------------------------------------------------------------------------------

/-- A text without an end of line in it. -/
def Unbroken (text : String) : Prop := '\r' ∉ text.toList ∧ '\n' ∉ text.toList

instance (text : String) : Decidable (Unbroken text) := inferInstanceAs (Decidable (_ ∧ _))

/-- The bytes of such a text, and no others, are free of both ends of a line. -/
theorem unbroken_iff {text : String} : Unbroken text ↔ 13 ∉ utf8 text ∧ 10 ∉ utf8 text := by
  have carriageReturn : 13 ∈ utf8 text ↔ '\r' ∈ text.toList :=
    mem_utf8_iff (show '\r'.val.toNat ≤ 127 by decide)
  have lineFeed : 10 ∈ utf8 text ↔ '\n' ∈ text.toList :=
    mem_utf8_iff (show '\n'.val.toNat ≤ 127 by decide)
  rw [Unbroken, carriageReturn, lineFeed]

/-- A line is free of both if it is put together from texts that are. -/
theorem headerLine_unbroken {header : String × String}
    : 13 ∉ headerLine header ∧ 10 ∉ headerLine header
      ↔ Unbroken header.1 ∧ Unbroken header.2 := by
  have colon : 13 ∉ utf8 ": " ∧ 10 ∉ utf8 ": " := by decide +kernel
  simp only [headerLine, List.mem_append, not_or, unbroken_iff]
  tauto

/-- The digits of a number are free of both. -/
theorem number_unbroken (n : Nat)
    : 13 ∉ utf8 (toString n) ∧ 10 ∉ utf8 (toString n) :=
  ⟨carriageReturn_not_mem_number n, fun mem => absurd (number_range mem) (by decide)⟩

/-- Hexadecimal digits are free of both. -/
theorem Hexadecimal.unbroken {text : String} (hexadecimal : Hexadecimal text)
    : Unbroken text := by
  refine ⟨?_, ?_⟩
  · intro mem
    exact absurd (hexadecimal _ mem) (by decide +kernel)
  · intro mem
    exact absurd (hexadecimal _ mem) (by decide +kernel)

/-- A number that is written with three digits. -/
theorem length_number_iff (n : Nat)
    : (utf8 (toString n)).length = 3 ↔ 100 ≤ n ∧ n < 1000 := by
  have three : (Nat.toDigits 10 n).length ≤ 3 ↔ n < 10 ^ 3 :=
    Nat.length_toDigits_le_iff (by decide) (by decide)
  have two : (Nat.toDigits 10 n).length ≤ 2 ↔ n < 10 ^ 2 :=
    Nat.length_toDigits_le_iff (by decide) (by decide)
  rw [utf8_number, List.length_map]
  omega

-----------------------------------------------------------------------------------------
-- Heads that are as they should be
-----------------------------------------------------------------------------------------

namespace HttpResponse

/-- Split at its line ends, a head is one line with a code of three digits and the reason,
one line for each header in order, three more, and an empty one that ends it; and no line is
broken.
-/
structure HeadIntact (resp : HttpResponse) : Prop where
  lines
    : headLines resp.writeHeader
      = resp.statusLine :: resp.respHeaders.map headerLine
        ++ [resp.traceIdLine, resp.connectionLine, serverLine, [], []]
  code : (utf8 (toString resp.code.toNat)).length = 3
  unbroken : ∀ line ∈ headLines resp.writeHeader, 13 ∉ line ∧ 10 ∉ line
  emptyLast : ∀ line ∈ (headLines resp.writeHeader).dropLast.dropLast, line ≠ []

variable {resp : HttpResponse}

theorem statusLine_unbroken (reason : Unbroken resp.reason)
    : 13 ∉ resp.statusLine ∧ 10 ∉ resp.statusLine := by
  have version : 13 ∉ utf8 "HTTP/1.1 " ∧ 10 ∉ utf8 "HTTP/1.1 " := by decide +kernel
  have blank : 13 ∉ utf8 " " ∧ 10 ∉ utf8 " " := by decide +kernel
  have code := number_unbroken resp.code.toNat
  have text := unbroken_iff.mp reason
  simp only [statusLine, List.mem_append, not_or]
  tauto

theorem traceIdLine_unbroken (traceId : Unbroken resp.context.traceId)
    : 13 ∉ resp.traceIdLine ∧ 10 ∉ resp.traceIdLine := by
  have name : Unbroken "X-TraceId" := by decide +kernel
  exact headerLine_unbroken.mpr ⟨name, traceId⟩

theorem connectionLine_unbroken (resp : HttpResponse)
    : 13 ∉ resp.connectionLine ∧ 10 ∉ resp.connectionLine := by
  unfold connectionLine
  cases resp.keepAlive with
  | true => decide +kernel
  | false => decide +kernel

/-- Lines that are not broken are the lines of the head. -/
theorem headLines_intact (reason : Unbroken resp.reason)
    (traceId : Unbroken resp.context.traceId)
    (headers : ∀ header ∈ resp.respHeaders, Unbroken header.1 ∧ Unbroken header.2)
    : headLines resp.writeHeader
      = resp.statusLine :: resp.respHeaders.map headerLine
        ++ [resp.traceIdLine, resp.connectionLine, serverLine, [], []] := by
  have each : headersLines resp.respHeaders = resp.respHeaders.map headerLine := by
    rw [← List.flatMap_singleton' (resp.respHeaders.map headerLine), List.flatMap_map]
    refine List.flatMap_congr fun header member => ?_
    exact headLines_of_not_mem (headerLine_unbroken.mpr (headers header member)).1
  have trace : headLines resp.traceIdLine = [resp.traceIdLine] :=
    headLines_of_not_mem (traceIdLine_unbroken traceId).1
  have server : headLines serverLine = [serverLine] := by decide +kernel
  rw [headLines_writeHeader, each, trace, server,
    headLines_of_not_mem (statusLine_unbroken reason).1,
    headLines_of_not_mem resp.connectionLine_unbroken.1]
  rfl

/-- A head is intact exactly if its code has three digits and its headers break no line, as
long as its reason and its trace id do not.
-/
theorem headIntact_iff (reason : Unbroken resp.reason)
    (traceId : Unbroken resp.context.traceId)
    : resp.HeadIntact
      ↔ (utf8 (toString resp.code.toNat)).length = 3
        ∧ ∀ header ∈ resp.respHeaders, Unbroken header.1 ∧ Unbroken header.2 := by
  constructor
  · intro intact
    refine ⟨intact.code, ?_⟩
    intro header member
    apply headerLine_unbroken.mp
    apply intact.unbroken
    rw [intact.lines]
    exact List.mem_append_left _ (List.mem_cons_of_mem _ (List.mem_map_of_mem member))
  · rintro ⟨code, headers⟩
    have lines := headLines_intact reason traceId headers
    have server : 13 ∉ serverLine ∧ 10 ∉ serverLine := by decide +kernel
    refine ⟨lines, code, ?_, ?_⟩
    · intro line member
      rw [lines] at member
      simp only [List.cons_append, List.mem_cons, List.mem_append, List.mem_map,
        List.not_mem_nil, or_false] at member
      rcases member with rfl | ⟨header, member, rfl⟩ | rfl | rfl | rfl | rfl | rfl
      · exact statusLine_unbroken reason
      · exact headerLine_unbroken.mpr (headers header member)
      · exact traceIdLine_unbroken traceId
      · exact resp.connectionLine_unbroken
      · exact server
      · exact ⟨List.not_mem_nil, List.not_mem_nil⟩
      · exact ⟨List.not_mem_nil, List.not_mem_nil⟩
    · have named (header : String × String) : headerLine header ≠ [] := by
        have colon : utf8 ": " ≠ [] := by decide +kernel
        simp [headerLine, colon]
      have shape
          : resp.statusLine :: resp.respHeaders.map headerLine
              ++ [resp.traceIdLine, resp.connectionLine, serverLine, [], []]
            = (resp.statusLine :: resp.respHeaders.map headerLine
                ++ [resp.traceIdLine, resp.connectionLine, serverLine])
              ++ [[]] ++ [[]] := by
        simp
      intro line member
      rw [lines, shape, List.dropLast_concat, List.dropLast_concat] at member
      simp only [List.cons_append, List.mem_cons, List.mem_append, List.mem_map,
        List.not_mem_nil, or_false] at member
      rcases member with rfl | ⟨header, member, rfl⟩ | rfl | rfl | rfl
      · have version : utf8 "HTTP/1.1 " ≠ [] := by decide +kernel
        simp [statusLine, version]
      · exact named header
      · exact named _
      · exact named _
      · exact named _

end HttpResponse

-----------------------------------------------------------------------------------------
-- Where the headers come from
-----------------------------------------------------------------------------------------

/-- What `httparse` documents of a status line: the code is that of its first three digits,
and the reason ends before the line does.
-/
structure StatusParser.Documented (parser : StatusParser) : Prop where
  code
    : ∀ {status code reason},
        parser.parse (utf8 "HTTP/1.1 " ++ utf8 status ++ utf8 "\r\n")
          = some (some code, reason) →
        3 ≤ status.toList.length ∧ decimal? (status.toList.take 3) = some code.toNat
  oneLine
    : ∀ {line code reason}, parser.parse line = some (code, some reason) → 10 ∉ utf8 reason

/-- Three digits give a number below a thousand; it has three digits itself unless the first
one is zero.
-/
theorem decimal?_three {text : List Char} {n : Nat} (long : 3 ≤ text.length)
    (number : decimal? (text.take 3) = some n)
    : n < 1000 ∧ (100 ≤ n ↔ text.head? ≠ some '0') := by
  match text, long with
  | first :: second :: third :: rest, _ =>
      have digits : ¬ ([first, second, third].isEmpty
          || !([first, second, third].all Char.isDigit)) = true := by
        intro bad
        rw [List.take_succ_cons, List.take_succ_cons, List.take_succ_cons, List.take_zero,
          decimal?, if_pos bad] at number
        cases number
      rw [List.take_succ_cons, List.take_succ_cons, List.take_succ_cons, List.take_zero,
        decimal?, if_neg digits] at number
      simp only [List.isEmpty_cons, List.all_cons, List.all_nil, Bool.and_true, Bool.false_or,
        Bool.not_eq_true', Bool.not_eq_false, Bool.and_eq_true] at digits
      have range := digit_range digits.1
      have range' := digit_range digits.2.1
      have range'' := digit_range digits.2.2
      have zero : first = '0' ↔ first.toNat = 48 :=
        ⟨fun same => same ▸ rfl, fun same => Char.ext (UInt32.toNat_inj.mp same)⟩
      have value := Option.some.inj number
      simp only [List.foldl_cons, List.foldl_nil, show '0'.toNat = 48 from rfl] at value
      rw [List.head?_cons, ne_eq, Option.some.injEq, zero]
      omega

/-- Where a head comes from: a call of `start_response`, or an exception. -/
inductive HeadSource where
  | startResponse (call : StartCall)
  | execErr (err : ExecError)

namespace HeadSource

/-- The head it gives, if it is accepted. -/
def header? (parser : StatusParser) (cfg : Config) : HeadSource → Option HttpResponseHeader
  | .startResponse call => (Casket.startResponse parser call).toOption
  | .execErr err => some (handleWsgiExecErr cfg err).1

/-- No text that is written as it is breaks its line, and the code is not padded. -/
def Safe (cfg : Config) : HeadSource → Prop
  | .startResponse call =>
      call.status.toList.head? ≠ some '0'
      ∧ ∀ name value,
          HeaderItem.pair name value ∈ call.headers → Unbroken name ∧ Unbroken value
  | .execErr err => cfg.bodyStacktrace = true → Unbroken err.value

end HeadSource

/-- Items that are all pairs are the headers, by induction on them. -/
theorem mapM_headerItem {items : List HeaderItem} {headers : List (String × String)}
    (got : items.mapM HeaderItem.get = .ok headers)
    : items = headers.map fun (name, value) => .pair name value := by
  induction items generalizing headers with
  | nil =>
      obtain rfl := Except.ok.inj got
      rfl
  | cons item rest ih =>
      rw [List.mapM_cons] at got
      cases first : item.get with
      | error e => rw [first] at got; cases got
      | ok header =>
          cases later : rest.mapM HeaderItem.get with
          | error e => rw [first, later] at got; cases got
          | ok headers' =>
              rw [first, later] at got
              obtain rfl := Except.ok.inj got
              rw [List.map_cons, ← ih later]
              cases item with
              | notTuple | wrongLength | notStrings => cases first
              | pair name value =>
                  obtain rfl := Except.ok.inj first
                  rfl

/-- What an accepted call of `start_response` gives. -/
theorem startResponse_ok {parser : StatusParser} {call : StartCall}
    {header : HttpResponseHeader} (started : startResponse parser call = .ok header)
    : parser.parse (utf8 "HTTP/1.1 " ++ utf8 call.status ++ utf8 "\r\n")
        = some (some header.code, some header.reason)
      ∧ call.headers = header.headers.map fun (name, value) => .pair name value := by
  unfold startResponse parseStatus at started
  split at started
  · cases started
  · next code reason parsed =>
      split at started
      · cases started
      · next headers got =>
          obtain rfl := Except.ok.inj started
          split at parsed
          · cases parsed
          · cases parsed
          · cases parsed
          · next found =>
              obtain ⟨rfl, rfl⟩ := Prod.mk.inj (Except.ok.inj parsed)
              exact ⟨found, mapM_headerItem got⟩

/-- The head of a response is intact if and only if where it comes from is safe. -/
theorem no_injection_iff {parser : StatusParser} (documented : parser.Documented)
    {cfg : Config} {crates : Crates} {server : String × UInt16} {req : HttpRequest}
    (delivered : req.Delivered crates) {source : HeadSource} {header : HttpResponseHeader}
    (reaches : source.header? parser cfg = some header) (body : Receiver)
    : ((buildEnviron server req).2.intoHttpResponse header body).HeadIntact
      ↔ source.Safe cfg := by
  have traceId
      : Unbroken ((buildEnviron server req).2.intoHttpResponse header body).context.traceId :=
    delivered.traceId.unbroken
  cases source with
  | startResponse call =>
      have started : startResponse parser call = .ok header := by
        cases started : startResponse parser call with
        | error e => rw [HeadSource.header?, started] at reaches; cases reaches
        | ok header' =>
            rw [HeadSource.header?, started] at reaches
            exact congrArg _ (Option.some.inj reaches)
      obtain ⟨parsed, items⟩ := startResponse_ok started
      obtain ⟨long, number⟩ := documented.code parsed
      have reason : Unbroken header.reason :=
        unbroken_iff.mpr ⟨parser.oneLine parsed, documented.oneLine parsed⟩
      obtain ⟨small, padded⟩ := decimal?_three long number
      rw [HttpResponse.headIntact_iff reason traceId, length_number_iff, HeadSource.Safe,
        ← padded, items]
      refine and_congr ⟨And.left, fun large => ⟨large, small⟩⟩ ⟨?_, ?_⟩
      · intro unbroken name value member
        obtain ⟨header', inside, same⟩ := List.mem_map.mp member
        obtain ⟨rfl, rfl⟩ := HeaderItem.pair.inj same
        exact unbroken header' inside
      · intro unbroken header' member
        exact unbroken header'.1 header'.2 (List.mem_map.mpr ⟨header', member, rfl⟩)
  | execErr err =>
      obtain rfl := Option.some.inj reaches
      have internal : Unbroken "Internal Server Error" := by decide +kernel
      have length : Unbroken "Content-Length" := by decide +kernel
      have number (n : Nat) : Unbroken (toString n) := unbroken_iff.mpr (number_unbroken n)
      have zero : Unbroken "0" := by decide +kernel
      have type : Unbroken "Content-Type" ∧ Unbroken "text/plain; charset=UTF-8" := by
        decide +kernel
      have error : Unbroken "X-Error" := by decide +kernel
      have code : (utf8 (toString 500)).length = 3 := by decide +kernel
      cases sent : cfg.bodyStacktrace with
      | true =>
          have given : handleWsgiExecErr cfg err = handlePythonExcBodyStacktrace err := by
            rw [handleWsgiExecErr, sent]
            rfl
          rw [given] at traceId ⊢
          rw [HttpResponse.headIntact_iff internal traceId]
          simp only [HeadSource.Safe, sent, forall_true_left]
          constructor
          · rintro ⟨-, unbroken⟩
            exact (unbroken ("X-Error", err.value) (by simp [HttpRequest.intoHttpResponse,
              handlePythonExcBodyStacktrace])).2
          · intro unbroken
            refine ⟨code, ?_⟩
            intro header member
            simp only [HttpRequest.intoHttpResponse, handlePythonExcBodyStacktrace,
              List.mem_cons, List.not_mem_nil, or_false] at member
            rcases member with rfl | rfl | rfl
            · exact ⟨length, number _⟩
            · exact type
            · exact ⟨error, unbroken⟩
      | false =>
          have given : handleWsgiExecErr cfg err = handlePythonExcEmpty := by
            rw [handleWsgiExecErr, sent]
            rfl
          rw [given] at traceId ⊢
          rw [HttpResponse.headIntact_iff internal traceId]
          simp only [HeadSource.Safe, sent, Bool.false_eq_true, false_implies, iff_true]
          refine ⟨code, ?_⟩
          intro header member
          simp only [HttpRequest.intoHttpResponse, handlePythonExcEmpty,
            List.mem_singleton] at member
          obtain rfl := member
          exact ⟨length, zero⟩

/-- The parser that knows one status does as documented. -/
theorem StatusParser.ok_documented : StatusParser.ok.Documented := by
  refine ⟨?_, ?_⟩
  · intro status code reason parsed
    simp only [StatusParser.ok] at parsed
    split at parsed
    · next same =>
        obtain ⟨code_eq, -⟩ := Prod.mk.inj (Option.some.inj parsed)
        obtain rfl := Option.some.inj code_eq
        have spelled
            : utf8 "HTTP/1.1 200 OK\r\n" = utf8 "HTTP/1.1 " ++ utf8 "200 OK" ++ utf8 "\r\n" := by
          decide +kernel
        rw [spelled] at same
        obtain rfl := utf8_inj (List.append_cancel_left (List.append_cancel_right same))
        decide +kernel
    · cases parsed
  · intro line code reason parsed
    simp only [StatusParser.ok] at parsed
    split at parsed
    · obtain ⟨-, reason_eq⟩ := Prod.mk.inj (Option.some.inj parsed)
      obtain rfl := Option.some.inj reason_eq
      decide +kernel
    · cases parsed

/-- The response to `rootRequest` with the head of a source. -/
def rootResponse (header : HttpResponseHeader) : HttpResponse :=
  (buildEnviron ("h", 80) rootRequest).2.intoHttpResponse header ⟨[], true⟩

/-- A header that breaks no line. -/
theorem no_injection_iff_pair : (rootResponse ⟨200, "OK", [("X-Name", "1")]⟩).HeadIntact := by
  have reaches
      : (HeadSource.startResponse ⟨"200 OK", [.pair "X-Name" "1"]⟩).header? .ok (.default "h")
        = some ⟨200, "OK", [("X-Name", "1")]⟩ := by
    decide +kernel
  have safe
      : (HeadSource.startResponse ⟨"200 OK", [.pair "X-Name" "1"]⟩).Safe (.default "h") := by
    refine ⟨by decide, ?_⟩
    intro name value member
    obtain ⟨rfl, rfl⟩ := HeaderItem.pair.inj (List.mem_singleton.mp member)
    decide +kernel
  exact (no_injection_iff StatusParser.ok_documented rootRequest_delivered reaches _).mpr safe

/-- A value with a line end in it is accepted, and a line of its own stands in the head. -/
theorem header_injected
    : startResponse .ok ⟨"200 OK", [.pair "X-Name" "1\r\nSet-Cookie: a"]⟩
        = .ok ⟨200, "OK", [("X-Name", "1\r\nSet-Cookie: a")]⟩
      ∧ utf8 "Set-Cookie: a"
        ∈ headLines (rootResponse ⟨200, "OK", [("X-Name", "1\r\nSet-Cookie: a")]⟩).writeHeader
      ∧ ¬ (rootResponse ⟨200, "OK", [("X-Name", "1\r\nSet-Cookie: a")]⟩).HeadIntact := by
  refine ⟨by decide +kernel, by decide +kernel, ?_⟩
  intro intact
  have count := congrArg List.length intact.lines
  revert count
  decide +kernel

end Casket
