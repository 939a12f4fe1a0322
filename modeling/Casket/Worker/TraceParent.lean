import Casket.Http.Head
import Casket.Pythonexec.Wsgi
import Casket.Worker.ReaderRuns

/-! The values of `Traceparent` headers that are accepted, and the contexts requests get from
them.
-/

namespace Casket

-----------------------------------------------------------------------------------------
-- The grammar of a value
-----------------------------------------------------------------------------------------

/-- So many lowercase hexadecimal digits. -/
def LowerHex (count : Nat) (id : String) : Prop :=
  id.toList.length = count
  ∧ ∀ c ∈ id.toList, ('0' ≤ c ∧ c ≤ '9') ∨ ('a' ≤ c ∧ c ≤ 'f')

/-- A value of version 00 with both ids, and more parts behind them. -/
structure HasParts (val traceId parentId : String) (rest : List String) : Prop where
  joined : val = "-".intercalate ("00" :: traceId :: parentId :: rest)
  parted : ∀ part ∈ rest, '-' ∉ part.toList
  traceId : LowerHex 32 traceId
  parentId : LowerHex 16 parentId

/-- The grammar: four parts, of which the last are the flags. -/
def FourParts (val traceId parentId : String) : Prop :=
  ∃ flags, HasParts val traceId parentId [flags]

/-- The same without flags. -/
def ThreeParts (val : String) : Prop :=
  ∃ traceId parentId, HasParts val traceId parentId []

/-- The characters the parser allows are the lowercase hexadecimal digits. -/
theorem mem_hexstring {c : Char}
    : c ∈ "0123456789abcdef".toList ↔ ('0' ≤ c ∧ c ≤ '9') ∨ ('a' ≤ c ∧ c ≤ 'f') := by
  constructor
  · have each
        : "0123456789abcdef".toList.all fun c =>
            ('0' ≤ c ∧ c ≤ '9') ∨ ('a' ≤ c ∧ c ≤ 'f') := by
      decide +kernel
    exact fun member => of_decide_eq_true (List.all_eq_true.mp each c member)
  · have digits : ∀ n < 58, 48 ≤ n → Char.ofNat n ∈ "0123456789abcdef".toList := by
      decide +kernel
    have letters : ∀ n < 103, 97 ≤ n → Char.ofNat n ∈ "0123456789abcdef".toList := by
      decide +kernel
    rintro (⟨low, high⟩ | ⟨low, high⟩)
    · rw [← Char.ofNat_toNat c]
      exact digits _ (Nat.lt_succ_of_le high) low
    · rw [← Char.ofNat_toNat c]
      exact letters _ (Nat.lt_succ_of_le high) low

theorem isHexstring_iff {id : String}
    : isHexstring id
      ↔ ∀ c ∈ id.toList, ('0' ≤ c ∧ c ≤ '9') ∨ ('a' ≤ c ∧ c ≤ 'f') := by
  simp only [isHexstring, List.all_eq_true, List.contains_iff_mem, mem_hexstring]

/-- A text of one-byte characters has as many bytes as characters, by induction on it. -/
theorem utf8ByteSize_ascii {chars : List Char} (ascii : ∀ c ∈ chars, c.utf8Size = 1)
    : (String.ofList chars).utf8ByteSize = chars.length := by
  induction chars with
  | nil => rfl
  | cons c rest ih =>
      obtain ⟨one, more⟩ := List.forall_mem_cons.mp ascii
      rw [← List.singleton_append, String.ofList_append, String.utf8ByteSize_append, ih more,
        ← String.singleton_eq_ofList, String.utf8ByteSize_singleton, one,
        List.length_append, List.length_singleton]

/-- The two checks on an id, of its bytes and of its characters, ask for so many digits. -/
theorem lowerHex_iff {count : Nat} {id : String}
    : LowerHex count id ↔ id.utf8ByteSize = count ∧ isHexstring id := by
  rw [isHexstring_iff, LowerHex]
  refine and_congr_left fun hex => ?_
  have ascii : ∀ c ∈ id.toList, c.utf8Size = 1 := by
    have each : "0123456789abcdef".toList.all fun c => c.utf8Size = 1 := by decide +kernel
    intro c member
    exact of_decide_eq_true (List.all_eq_true.mp each c (mem_hexstring.mpr (hex c member)))
  rw [← utf8ByteSize_ascii ascii, String.ofList_toList]

theorem LowerHex.not_mem {count : Nat} {id : String} (hex : LowerHex count id)
    : '-' ∉ id.toList :=
  fun member => absurd (hex.2 _ member) (by decide)

-----------------------------------------------------------------------------------------
-- What the parser accepts
-----------------------------------------------------------------------------------------

/-- The parts of a value, as the parser splits it. -/
theorem HasParts.split {val traceId parentId : String} {rest : List String}
    (parts : HasParts val traceId parentId rest)
    : (val.toList.splitOn '-').map String.ofList = "00" :: traceId :: parentId :: rest := by
  obtain ⟨rfl, parted, trace, parent⟩ := parts
  rw [String.toList_intercalate]
  have free : ∀ part ∈ ("00" :: traceId :: parentId :: rest).map String.toList,
      '-' ∉ part := by
    simp only [List.forall_mem_map, List.forall_mem_cons]
    exact ⟨by decide, trace.not_mem, parent.not_mem, parted⟩
  have dash : "-".toList = ['-'] := by decide
  rw [dash, List.splitOn_intercalate '-' free (by simp), List.map_map]
  exact List.map_id'' (fun part => String.ofList_toList) _

/-- A value is its parts, joined again. -/
theorem HasParts.of_split {val traceId parentId : String} {rest : List String}
    (split
      : (val.toList.splitOn '-').map String.ofList = "00" :: traceId :: parentId :: rest)
    (trace : LowerHex 32 traceId) (parent : LowerHex 16 parentId)
    : HasParts val traceId parentId rest := by
  have parts : val.toList.splitOn '-' =
      ("00" :: traceId :: parentId :: rest).map String.toList := by
    rw [← split, List.map_map]
    exact (List.map_id'' (fun part => String.toList_ofList) _).symm
  refine ⟨?_, ?_, trace, parent⟩
  · have dash : "-".toList = ['-'] := by decide
    rw [← String.toList_inj, String.toList_intercalate, dash, ← parts,
      List.intercalate_splitOn]
  · intro part member
    refine Lib.not_mem_of_mem_splitOn part.toList (parts ▸ List.mem_map_of_mem ?_)
    exact List.mem_cons_of_mem _ (List.mem_cons_of_mem _ (List.mem_cons_of_mem _ member))

/-- The loop over the parts ends well after at most four of them, of which the first is the
version.
-/
theorem parseContextParts_ok_iff {parts : List String} {traceId parentId : String}
    (given : parentId ≠ "")
    : parseContextParts 0 parts ("", "") = .ok (traceId, parentId)
      ↔ ∃ rest, parts = "00" :: traceId :: parentId :: rest ∧ rest.length ≤ 1 := by
  match parts with
  | [] => simp [parseContextParts, given.symm]
  | [version] =>
      by_cases supported : version = "00" <;>
        simp [parseContextParts, supported, given.symm]
  | [version, trace] =>
      by_cases supported : version = "00" <;>
        simp [parseContextParts, supported, given.symm]
  | [version, trace, parent] =>
      by_cases supported : version = "00" <;> simp [parseContextParts, supported]
  | [version, trace, parent, flags] =>
      by_cases supported : version = "00" <;> simp [parseContextParts, supported]
  | version :: trace :: parent :: flags :: more :: rest =>
      by_cases supported : version = "00" <;> simp [parseContextParts, supported]

/-- A value is accepted with its two ids, with or without a part behind them. -/
theorem parseContext_ok_iff {rng : Rng} {val : String} {context : Context}
    : parseContext rng val = .ok context
      ↔ ∃ traceId parentId rest,
          HasParts val traceId parentId rest
          ∧ rest.length ≤ 1
          ∧ context = .fromVals rng traceId parentId := by
  constructor
  · intro accepted
    unfold parseContext at accepted
    split at accepted
    · cases accepted
    · next traceId parentId parsed =>
        split at accepted
        · cases accepted
        · next lengths =>
            split at accepted
            · cases accepted
            · next traceHex =>
                split at accepted
                · cases accepted
                · next parentHex =>
                    simp only [ne_eq, Bool.or_eq_true, decide_eq_true_eq, not_or, not_not,
                      Bool.not_eq_true', Bool.not_eq_false] at lengths traceHex parentHex
                    have trace := lowerHex_iff.mpr ⟨lengths.1, traceHex⟩
                    have parent := lowerHex_iff.mpr ⟨lengths.2, parentHex⟩
                    have given : parentId ≠ "" := fun empty => by
                      rw [empty] at lengths
                      exact absurd lengths.2 (by decide)
                    obtain ⟨rest, split, few⟩ := (parseContextParts_ok_iff given).mp parsed
                    exact ⟨traceId, parentId, rest, .of_split split trace parent, few,
                      (Except.ok.inj accepted).symm⟩
  · rintro ⟨traceId, parentId, rest, parts, few, rfl⟩
    obtain ⟨traceLength, traceHex⟩ := lowerHex_iff.mp parts.traceId
    obtain ⟨parentLength, parentHex⟩ := lowerHex_iff.mp parts.parentId
    have given : parentId ≠ "" := fun empty => by
      rw [empty] at parentLength
      exact absurd parentLength (by decide)
    have parsed := (parseContextParts_ok_iff given).mpr ⟨rest, parts.split, few⟩
    simp only [parseContext, parsed, traceLength, parentLength, traceHex, parentHex, ne_eq,
      not_true_eq_false, decide_false, Bool.or_self, Bool.false_eq_true, if_false,
      Bool.not_true]

-----------------------------------------------------------------------------------------
-- The context of a request
-----------------------------------------------------------------------------------------

/-- A `Traceparent` header with this value. -/
def IsTraceparent (h : String × Bytes) (val : String) : Prop :=
  eqIgnoreAsciiCase h.1 "Traceparent" ∧ fromUtf8 h.2 = some val

/-- The context of a header, if it is a `Traceparent` with a value that is accepted. -/
def traceContext? (rng : Rng) (h : String × Bytes) : Option Context :=
  if eqIgnoreAsciiCase h.1 "Traceparent" then
    (fromUtf8 h.2).bind fun value => (parseContext rng value).toOption
  else
    none

theorem IsTraceparent.context {h : String × Bytes} {val : String}
    (named : IsTraceparent h val) (rng : Rng)
    : traceContext? rng h = (parseContext rng val).toOption := by
  rw [traceContext?, if_pos named.1, named.2, Option.bind_some]

/-- The last valid context, or a fresh one. -/
def contextOf (rng : Rng) (headers : List (String × Bytes)) : Context :=
  (headers.filterMap (traceContext? rng)).getLast?.getD (.new rng)

/-- The loop keeps the last valid context. Witness: induction on the headers. -/
theorem HeadFields.loop_context {rng : Rng} {headers : List (String × Bytes)}
    {self after : HeadFields} (accepted : self.loop rng headers = .ok after)
    : after.context = (headers.filterMap (traceContext? rng)).getLast?.or self.context := by
  induction headers generalizing self with
  | nil =>
      obtain rfl := Except.ok.inj accepted
      rfl
  | cons h rest ih =>
      obtain ⟨between, first, accepted⟩ := loop_cons accepted
      have set : between.context = (traceContext? rng h).or self.context := by
        rw [header_context first, traceContext?]
        split
        · rfl
        · rw [Option.none_or]
      rw [ih accepted, set, List.filterMap_cons]
      cases traceContext? rng h with
      | none => rfl
      | some context =>
          rw [List.getLast?_cons]
          cases (rest.filterMap (traceContext? rng)).getLast? <;> rfl

theorem PartialHttpReq.new_context {crates : Crates} {rng : Rng} {request : ParsedRequest}
    {req : PartialHttpReq} (accepted : new crates rng request = .ok (.ok req))
    : req.context = contextOf rng request.headers := by
  obtain ⟨fields, -, -, looped, -, -, -, -, -, -, context, -⟩ := new_inv accepted
  rw [context, HeadFields.loop_context looped]
  simp [contextOf, HeadFields.new]

section Without

variable {crates : Crates} {rng : Rng} {request : ParsedRequest} {req : PartialHttpReq}
variable {front back : List (String × Bytes)} {h : String × Bytes} {val : String}

/-- A `Traceparent` header is not one of those a request can be refused for. -/
theorem IsTraceparent.accepted (named : IsTraceparent h val)
    : HeaderAccepted h ∧ eqIgnoreAsciiCase h.1 "Host" = false := by
  have lower : h.1.toList.map Char.toLower = "Traceparent".toList.map Char.toLower :=
    beq_iff_eq.mp named.1
  have length : eqIgnoreAsciiCase h.1 "Content-Length" = false := by
    rw [eqIgnoreAsciiCase, lower]
    decide
  have host : eqIgnoreAsciiCase h.1 "Host" = false := by
    rw [eqIgnoreAsciiCase, lower]
    decide
  exact ⟨⟨val, named.2, fun same => by simp [length] at same⟩, host⟩

/-- A request is accepted with a `Traceparent` header exactly when it is without. -/
theorem IsTraceparent.accepted_iff (named : IsTraceparent h val)
    (headers : request.headers = front ++ h :: back)
    : Accepted crates request
      ↔ Accepted crates { request with headers := front ++ back } := by
  obtain ⟨inOrder, noHost⟩ := named.accepted
  have host : hostOf request.headers = hostOf (front ++ back) := by
    simp only [headers, hostOf, List.foldl_append, List.foldl_cons, noHost,
      Bool.false_eq_true, if_false]
  have each
      : (∀ other ∈ request.headers, HeaderAccepted other)
        ↔ ∀ other ∈ front ++ back, HeaderAccepted other := by
    simp only [headers, List.forall_mem_append, List.forall_mem_cons, inOrder, true_and]
  constructor
  · intro ⟨method, accepted, url⟩
    exact ⟨method, each.mp accepted, host ▸ url⟩
  · intro ⟨method, accepted, url⟩
    exact ⟨method, each.mpr accepted, host ▸ url⟩

end Without

/-- What a `Traceparent` header with this value does to a request that has it. -/
structure TraceparentRight (val : String) : Prop where
  accepts
    : ∀ rng,
        (∃ context, parseContext rng val = .ok context)
        ↔ ∃ traceId parentId, FourParts val traceId parentId
  carries
    : ∀ rng context,
        parseContext rng val = .ok context
        → ∃ traceId parentId,
            FourParts val traceId parentId
            ∧ context.traceId = traceId
            ∧ context.parentId = some parentId
  answers
    : ∀ {crates rng request req front h back traceId parentId},
        FourParts val traceId parentId
        → IsTraceparent h val
        → request.headers = front ++ h :: back
        → back.filterMap (traceContext? rng) = []
        → PartialHttpReq.new crates rng request = .ok (.ok req)
        → req.context = .fromVals rng traceId parentId
          ∧ ∀ server header body,
              let resp :=
                (buildEnviron server req.toHttpRequest).2.intoHttpResponse header body
              headerLine ("X-TraceId", traceId) ∈ headLines resp.writeHeader
  ignored
    : ∀ {crates rng request e front h back},
        parseContext rng val = .error e
        → IsTraceparent h val
        → request.headers = front ++ h :: back
        → ((∃ req, PartialHttpReq.new crates rng request = .ok (.ok req))
            ↔ ∃ req,
                PartialHttpReq.new crates rng { request with headers := front ++ back }
                = .ok (.ok req))
          ∧ ∀ req,
              PartialHttpReq.new crates rng request = .ok (.ok req)
              → req.context = contextOf rng (front ++ back)

/-- The parts of a value determine its ids. -/
theorem HasParts.unique {val traceId parentId traceId' parentId' : String}
    {rest rest' : List String} (parts : HasParts val traceId parentId rest)
    (other : HasParts val traceId' parentId' rest')
    : traceId = traceId' ∧ parentId = parentId' ∧ rest = rest' := by
  have same := parts.split.symm.trans other.split
  simpa using same

/-- A value that is not of three parts is accepted for four. -/
theorem parseContext_ok_fourParts {rng : Rng} {val : String} {context : Context}
    (notThree : ¬ ThreeParts val)
    : parseContext rng val = .ok context
      ↔ ∃ traceId parentId,
          FourParts val traceId parentId ∧ context = .fromVals rng traceId parentId := by
  rw [parseContext_ok_iff]
  constructor
  · rintro ⟨traceId, parentId, rest, parts, few, made⟩
    rcases rest with - | ⟨flags, - | ⟨more, rest⟩⟩
    · exact absurd ⟨traceId, parentId, parts⟩ notThree
    · exact ⟨traceId, parentId, ⟨flags, parts⟩, made⟩
    · simp at few
  · rintro ⟨traceId, parentId, ⟨flags, parts⟩, made⟩
    exact ⟨traceId, parentId, [flags], parts, by simp, made⟩

/-- A request is answered with the trace id of its context in a line of its own. -/
theorem traceIdLine_mem {traceId : String} (hex : LowerHex 32 traceId) {resp : HttpResponse}
    (carried : resp.context.traceId = traceId)
    : headerLine ("X-TraceId", traceId) ∈ headLines resp.writeHeader := by
  have line : resp.traceIdLine = headerLine ("X-TraceId", traceId) := by
    rw [HttpResponse.traceIdLine, carried]
  have free : 13 ∉ headerLine ("X-TraceId", traceId) := by
    have noBreak : 13 ∉ utf8 traceId := fun member =>
      absurd (hex.2 _ (carriageReturn_of_mem_utf8 member)) (by decide)
    simp only [headerLine, List.mem_append, not_or]
    exact ⟨⟨by decide +kernel, by decide +kernel⟩, noBreak⟩
  rw [headLines_writeHeader, line, headLines_of_not_mem free]
  simp

/-- A `Traceparent` value is treated by its grammar exactly when it is not one that lacks
the flags alone.
-/
theorem traceparentRight_iff (val : String) : TraceparentRight val ↔ ¬ ThreeParts val := by
  constructor
  · rintro right ⟨traceId, parentId, parts⟩
    have rng : Rng := ⟨[], []⟩
    have accepted : parseContext rng val = .ok (.fromVals rng traceId parentId) :=
      parseContext_ok_iff.mpr ⟨traceId, parentId, [], parts, by simp, rfl⟩
    obtain ⟨_, _, flags, four⟩ := (right.accepts rng).mp ⟨_, accepted⟩
    simpa using (parts.unique four).2.2
  · intro notThree
    refine ⟨fun rng => ?_, fun rng context parsed => ?_, ?_, ?_⟩
    · simp only [parseContext_ok_fourParts notThree]
      constructor
      · rintro ⟨context, traceId, parentId, four, -⟩
        exact ⟨traceId, parentId, four⟩
      · rintro ⟨traceId, parentId, four⟩
        exact ⟨_, traceId, parentId, four, rfl⟩
    · obtain ⟨traceId, parentId, four, rfl⟩ := (parseContext_ok_fourParts notThree).mp parsed
      exact ⟨traceId, parentId, four, rfl, rfl⟩
    · intro crates rng request req front h back traceId parentId four named headers last made
      have parsed := (parseContext_ok_fourParts notThree).mpr
        ⟨traceId, parentId, four, (rfl : Context.fromVals rng traceId parentId = _)⟩
      have context : req.context = .fromVals rng traceId parentId := by
        rw [PartialHttpReq.new_context made, headers, contextOf, List.filterMap_append,
          List.filterMap_cons, last, named.context, parsed]
        simp [Except.toOption]
      refine ⟨context, fun server header body => ?_⟩
      obtain ⟨flags, parts⟩ := four
      exact traceIdLine_mem parts.traceId (congrArg Context.traceId context)
    · intro crates rng request e front h back refused named headers
      refine ⟨?_, fun req made => ?_⟩
      · rw [PartialHttpReq.new_ok_iff, PartialHttpReq.new_ok_iff, named.accepted_iff headers]
      · rw [PartialHttpReq.new_context made, headers, contextOf, contextOf,
          List.filterMap_append, List.filterMap_append, List.filterMap_cons, named.context,
          refused]
        rfl

/-- A value of three parts, with the ids of version 00 and no flags. -/
theorem traceparent_without_flags
    : ¬ TraceparentRight "00-0af7651916cd43dd8448eb211c80319c-b7ad6b7169203331" := by
  intro right
  cases parsed : parseContext ⟨[], []⟩
      "00-0af7651916cd43dd8448eb211c80319c-b7ad6b7169203331" with
  | error e =>
      have accepted : (parseContext ⟨[], []⟩
          "00-0af7651916cd43dd8448eb211c80319c-b7ad6b7169203331").toOption.isSome := by
        decide +kernel
      rw [parsed] at accepted
      cases accepted
  | ok context =>
      obtain ⟨traceId, parentId, flags, four⟩ := (right.accepts _).mp ⟨_, parsed⟩
      have three : ("00-0af7651916cd43dd8448eb211c80319c-b7ad6b7169203331".toList.splitOn
          '-').length = 3 := by decide +kernel
      have count := congrArg List.length four.split
      rw [List.length_map, three] at count
      cases count

end Casket
