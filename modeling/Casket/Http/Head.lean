import Casket.Http.Types
import Casket.Lib.Lines

/-! The head of a response as its receiver reads it: lines that end in CR LF, and in them
the headers that give a length.
-/

namespace Casket

open Lib

-----------------------------------------------------------------------------------------
-- Texts as bytes
-----------------------------------------------------------------------------------------

/-- The bytes of a text are those of its characters. -/
theorem utf8_ofList (characters : List Char)
    : utf8 (String.ofList characters) = characters.flatMap String.utf8EncodeChar := by
  have bytes : utf8 (String.ofList characters) = characters.utf8Encode.data.toList := by
    rw [utf8, String.toUTF8, String.toByteArray_ofList]
  rw [bytes, List.utf8Encode]
  simp

/-- Texts with the same bytes are the same. -/
theorem utf8_inj {left right : String} (same : utf8 left = utf8 right) : left = right := by
  rw [utf8, utf8, String.toUTF8, String.toUTF8] at same
  exact String.toByteArray_inj.mp (ByteArray.ext (Array.toList_inj.mp same))

/-- The encoding of an ASCII character is its code. -/
theorem utf8EncodeChar_ascii {c : Char} (ascii : c.val.toNat ≤ 127)
    : String.utf8EncodeChar c = [UInt8.ofNat c.toNat] := by
  simp only [String.utf8EncodeChar, ascii, if_true]
  rfl

/-- An ASCII byte stands for its character: no longer encoding contains one. -/
theorem mem_utf8_iff {c : Char} (ascii : c.val.toNat ≤ 127) {text : String}
    : UInt8.ofNat c.toNat ∈ utf8 text ↔ c ∈ text.toList := by
  rw [← String.ofList_toList (s := text), utf8_ofList, List.mem_flatMap,
    String.ofList_toList]
  constructor
  · rintro ⟨d, inside, mem⟩
    have code : c.toNat = c.val.toNat := rfl
    have value {n : Nat} (same : UInt8.ofNat c.toNat = UInt8.ofNat n) : n % 256 = c.val.toNat := by
      have := congrArg UInt8.toNat same
      rw [UInt8.toNat_ofNat', UInt8.toNat_ofNat', code] at this
      omega
    have small : d.val.toNat = c.val.toNat := by
      simp only [String.utf8EncodeChar] at mem
      split at mem
      · have := value (List.mem_singleton.mp mem)
        omega
      · repeat' split at mem
        all_goals
          simp only [List.mem_cons, List.not_mem_nil, or_false] at mem
        · rcases mem with mem | mem <;> have := value mem <;> omega
        · rcases mem with mem | mem | mem <;> have := value mem <;> omega
        · rcases mem with mem | mem | mem | mem <;> have := value mem <;> omega
    have same : d = c := Char.ext (UInt32.toNat_inj.mp small)
    exact same ▸ inside
  · intro inside
    refine ⟨c, inside, ?_⟩
    rw [utf8EncodeChar_ascii ascii]
    exact List.mem_singleton_self _

/-- A carriage return byte is a carriage return. -/
theorem carriageReturn_of_mem_utf8 {text : String} (mem : 13 ∈ utf8 text)
    : '\r' ∈ text.toList :=
  (mem_utf8_iff (show '\r'.val.toNat ≤ 127 by decide)).mp mem

/-- The code of a decimal digit. -/
theorem digit_range {c : Char} (digit : c.isDigit) : 48 ≤ c.toNat ∧ c.toNat ≤ 57 := by
  simp only [Char.isDigit, Bool.and_eq_true, decide_eq_true_eq] at digit
  exact ⟨digit.1, digit.2⟩

/-- A number is one byte for each of its digits. -/
theorem utf8_number (n : Nat)
    : utf8 (toString n) = (Nat.toDigits 10 n).map fun c => UInt8.ofNat c.toNat := by
  change utf8 (Nat.repr n) = _
  rw [Nat.repr, utf8_ofList, ← List.flatMap_singleton' ((Nat.toDigits 10 n).map _),
    List.flatMap_map]
  refine List.flatMap_congr fun c mem => ?_
  have range := digit_range (Nat.isDigit_of_mem_toDigits (by decide) (by decide) mem)
  have small : c.val.toNat ≤ 127 := by
    have : c.val.toNat = c.toNat := rfl
    omega
  exact utf8EncodeChar_ascii small

/-- The bytes of a number are digits. -/
theorem number_range {n : Nat} {byte : UInt8} (mem : byte ∈ utf8 (toString n))
    : 48 ≤ byte.toNat ∧ byte.toNat ≤ 57 := by
  rw [utf8_number, List.mem_map] at mem
  obtain ⟨c, mem, rfl⟩ := mem
  have range := digit_range (Nat.isDigit_of_mem_toDigits (by decide) (by decide) mem)
  rw [UInt8.toNat_ofNat']
  omega

/-- A decimal number breaks no line. -/
theorem carriageReturn_not_mem_number (n : Nat) : 13 ∉ utf8 (toString n) :=
  fun mem => absurd (number_range mem) (by decide)

/-- Reading the digits of a number gives the number. -/
theorem decimal?_number (n : Nat)
    : decimal? ((utf8 (toString n)).map fun byte => Char.ofNat byte.toNat) = some n := by
  have same
      : ((utf8 (toString n)).map fun byte => Char.ofNat byte.toNat) = Nat.toDigits 10 n := by
    rw [utf8_number, List.map_map]
    refine (List.map_congr_left fun c mem => ?_).trans (List.map_id _)
    have range := digit_range (Nat.isDigit_of_mem_toDigits (by decide) (by decide) mem)
    have code : (UInt8.ofNat c.toNat).toNat = c.toNat := by
      rw [UInt8.toNat_ofNat']
      omega
    simp only [Function.comp_apply, code, id]
    exact Char.ofNat_toNat c
  have digits : ¬ ((Nat.toDigits 10 n).isEmpty || !(Nat.toDigits 10 n).all Char.isDigit) := by
    simp only [Bool.or_eq_true, List.isEmpty_iff, Nat.toDigits_ne_nil, Bool.not_eq_true',
      List.all_eq_false, false_or, not_exists, not_and]
    intro c mem
    simp [Nat.isDigit_of_mem_toDigits (by decide) (by decide) mem]
  rw [same, decimal?, if_neg digits, ← Nat.ofDigitChars_eq_foldl, Nat.ofDigitChars_ten_toDigits]

-----------------------------------------------------------------------------------------
-- Lines and lengths
-----------------------------------------------------------------------------------------

/-- The lines of a head. -/
def headLines (head : Bytes) : List Bytes := splitPair 13 10 head

/-- An ASCII letter in lower case, and any other byte. -/
def lowerByte (byte : UInt8) : UInt8 :=
  if 65 ≤ byte ∧ byte ≤ 90 then byte + 32 else byte

/-- A value without the blanks around it. -/
def trimBlanks (value : Bytes) : Bytes :=
  let blank (byte : UInt8) : Bool := byte = 32 || byte = 9
  ((value.dropWhile blank).reverse.dropWhile blank).reverse

/-- The number a `Content-Length` line gives, if it gives one; nothing for other lines. -/
def contentLength? (line : Bytes) : Option (Option Nat) :=
  let name := line.takeWhile (· ≠ 58)
  if name.map lowerByte = utf8 "content-length" ∧ name ≠ line then
    some
      (decimal?
        ((trimBlanks (line.drop (name.length + 1))).map fun byte => Char.ofNat byte.toNat))
  else
    none

/-- What every `Content-Length` line of some lines gives. -/
def contentLengths (lines : List Bytes) : List (Option Nat) := lines.filterMap contentLength?

/-- The lines of a head before its first empty one, behind which a receiver reads the body. -/
def blockLines (head : Bytes) : List Bytes := (headLines head).takeWhile (· ≠ [])

/-- A head that ends with its first empty line, and whose lines give exactly one length, the
one of the body.
-/
def Delimits (head : Bytes) (length : Nat) : Prop :=
  headLines head = blockLines head ++ [[], []]
  ∧ contentLengths (blockLines head) = [some length]

instance (head : Bytes) (length : Nat) : Decidable (Delimits head length) :=
  inferInstanceAs (Decidable (_ ∧ _))

/-- A header as `write_header` writes it, without the end of its line. -/
def headerLine (header : String × String) : Bytes :=
  utf8 header.1 ++ utf8 ": " ++ utf8 header.2

/-- The lines of some headers; a name or a value may break its line. -/
def headersLines (headers : List (String × String)) : List Bytes :=
  headers.flatMap fun header => headLines (headerLine header)

/-- The lengths the lines of some headers give, if none of these lines is empty. -/
def headerLengths (headers : List (String × String)) : Option (List (Option Nat)) :=
  if [] ∈ headersLines headers then none else some (contentLengths (headersLines headers))

/-- The end of a line ends it, whatever stands before. -/
theorem headLines_append (front back : Bytes)
    : headLines (front ++ utf8 "\r\n" ++ back) = headLines front ++ headLines back := by
  have ending : utf8 "\r\n" = [13, 10] := by decide +kernel
  rw [ending, List.append_assoc]
  exact splitPair_append (by decide) front back

/-- A line without a carriage return is one line. -/
theorem headLines_of_not_mem {line : Bytes} (free : 13 ∉ line) : headLines line = [line] :=
  splitPair_of_not_mem free

@[simp]
theorem contentLengths_append (front back : List Bytes)
    : contentLengths (front ++ back) = contentLengths front ++ contentLengths back :=
  List.filterMap_append

/-- A line that does not begin with a `c` gives no length. -/
theorem contentLength?_cons {byte : UInt8} {rest : Bytes} (other : lowerByte byte ≠ 99)
    (name : byte ≠ 58)
    : contentLength? (byte :: rest) = none := by
  have spelled : utf8 "content-length" = 99 :: utf8 "ontent-length" := by decide +kernel
  simp [contentLength?, name, spelled, other]

/-- Headers have the lines of the first and of the others. -/
theorem headersLines_cons (header : String × String) (rest : List (String × String))
    : headersLines (header :: rest) = headLines (headerLine header) ++ headersLines rest :=
  List.flatMap_cons

@[simp]
theorem headersLines_singleton (header : String × String)
    : headersLines [header] = headLines (headerLine header) :=
  List.flatMap_singleton ..

/-- Headers give the lengths that the first and the others give. -/
theorem headerLengths_cons (header : String × String) (rest : List (String × String))
    : headerLengths (header :: rest)
      = (headerLengths [header]).bind fun first =>
          (headerLengths rest).map (first ++ ·) := by
  rw [headerLengths, headersLines_cons]
  by_cases first : [] ∈ headLines (headerLine header)
  · simp [headerLengths, first]
  · by_cases later : [] ∈ headersLines rest
    · simp [headerLengths, later]
    · simp [headerLengths, first, later]

/-- A length behind an empty line is not one of the head. -/
example : headerLengths [("X", "a\r\n\r\nb"), ("Content-Length", "2")] = none := by
  decide +kernel

/-- Blanks in front of a value without blanks are trimmed. -/
theorem trimBlanks_cons {value : Bytes} (solid : ∀ byte ∈ value, byte ≠ 32 ∧ byte ≠ 9)
    : trimBlanks (32 :: value) = value := by
  have kept {items : Bytes} (solid : ∀ byte ∈ items, byte ≠ 32 ∧ byte ≠ 9)
      : items.dropWhile (fun byte => decide (byte = 32) || decide (byte = 9)) = items := by
    cases items with
    | nil => rfl
    | cons first rest => simp [solid first List.mem_cons_self]
  have back : ∀ byte ∈ value.reverse, byte ≠ 32 ∧ byte ≠ 9 :=
    fun byte mem => solid byte (List.mem_reverse.mp mem)
  simp [trimBlanks, kept solid, kept back]

/-- A `Content-Length` header with a number gives that number. -/
theorem headerLengths_number (n : Nat)
    : headerLengths [("Content-Length", toString n)] = some [some n] := by
  have free : 13 ∉ headerLine ("Content-Length", toString n) := by
    simp only [headerLine, List.mem_append, not_or]
    exact ⟨⟨by decide +kernel, by decide +kernel⟩, carriageReturn_not_mem_number n⟩
  have colon : utf8 ": " = [58, 32] := by decide +kernel
  have line
      : headerLine ("Content-Length", toString n)
        = utf8 "Content-Length" ++ 58 :: 32 :: utf8 (toString n) := by
    simp [headerLine, colon]
  have name
      : (headerLine ("Content-Length", toString n)).takeWhile (· ≠ 58)
        = utf8 "Content-Length" := by
    have letters : ∀ byte ∈ utf8 "Content-Length", decide (byte ≠ 58) := by decide +kernel
    rw [line, List.takeWhile_append_of_pos letters]
    simp
  have spelled : (utf8 "Content-Length").map lowerByte = utf8 "content-length" := by
    decide +kernel
  have longer : utf8 "Content-Length" ≠ headerLine ("Content-Length", toString n) := by
    intro same
    have := congrArg List.length (same.trans line)
    simp at this
  have value
      : (headerLine ("Content-Length", toString n)).drop ((utf8 "Content-Length").length + 1)
        = 32 :: utf8 (toString n) := by
    rw [line, List.drop_length_add_append]
    rfl
  have solid : ∀ byte ∈ utf8 (toString n), byte ≠ 32 ∧ byte ≠ 9 := by
    intro byte mem
    have range := number_range mem
    constructor <;> rintro rfl <;> exact absurd range (by decide)
  have gives
      : contentLength? (headerLine ("Content-Length", toString n)) = some (some n) := by
    rw [contentLength?]
    simp only [name, spelled, true_and, longer, ne_eq, not_false_eq_true, if_true, value,
      trimBlanks_cons solid, decimal?_number]
  have lines
      : headersLines [("Content-Length", toString n)]
        = [headerLine ("Content-Length", toString n)] := by
    rw [headersLines_singleton, headLines_of_not_mem free]
  have solid : headerLine ("Content-Length", toString n) ≠ [] := by
    rw [line]
    simp
  rw [headerLengths, lines, if_neg (by simpa using solid.symm), contentLengths,
    List.filterMap_cons, gives, List.filterMap_nil]

-----------------------------------------------------------------------------------------
-- The head that is written
-----------------------------------------------------------------------------------------

namespace HttpResponse

/-- The first line, in which the reason is followed by a blank. -/
def statusLine (self : HttpResponse) : Bytes :=
  utf8 "HTTP/1.1 " ++ utf8 (toString self.code.toNat) ++ utf8 " " ++ utf8 self.reason
  ++ utf8 " "

def traceIdLine (self : HttpResponse) : Bytes :=
  headerLine ("X-TraceId", self.context.traceId)

def connectionLine (self : HttpResponse) : Bytes :=
  headerLine ("Connection", if self.keepAlive then "Keep-Alive" else "Close")

end HttpResponse

def serverLine : Bytes := headerLine ("Server", "Casket")

/-- The lines of the headers in a head, each ended, before some more. -/
private theorem headLines_headers (headers : List (String × String)) (back : Bytes)
    : headLines
        (headers.flatMap (fun (name, value) =>
            utf8 name ++ utf8 ": " ++ utf8 value ++ utf8 "\r\n")
          ++ back)
      = headersLines headers ++ headLines back := by
  induction headers with
  | nil => rfl
  | cons header rest ih =>
      obtain ⟨name, value⟩ := header
      rw [List.flatMap_cons, List.append_assoc, headLines_append, ih, headersLines_cons,
        List.append_assoc]
      simp only [headerLine, List.append_assoc]

/-- The lines of a head: the first one, those of its headers, three more, and an empty one
that ends it.
-/
theorem headLines_writeHeader (resp : HttpResponse)
    : headLines resp.writeHeader
      = headLines resp.statusLine
        ++ (headersLines resp.respHeaders
          ++ (headLines resp.traceIdLine
            ++ (headLines resp.connectionLine ++ (headLines serverLine ++ [[], []])))) := by
  have shape
      : resp.writeHeader
        = resp.statusLine ++ utf8 "\r\n"
          ++ (resp.respHeaders.flatMap (fun (name, value) =>
                utf8 name ++ utf8 ": " ++ utf8 value ++ utf8 "\r\n")
              ++ (resp.traceIdLine ++ utf8 "\r\n"
                ++ (resp.connectionLine ++ utf8 "\r\n"
                  ++ (serverLine ++ utf8 "\r\n" ++ ([] ++ utf8 "\r\n" ++ []))))) := by
    unfold HttpResponse.writeHeader HttpResponse.statusLine HttpResponse.traceIdLine
      HttpResponse.connectionLine serverLine headerLine
    simp only [List.append_assoc, List.nil_append, List.append_nil]
  rw [shape, headLines_append, headLines_headers, headLines_append, headLines_append,
    headLines_append, headLines_append]
  rfl

/-- The first line is one line without a length, unless its reason breaks it. -/
theorem HttpResponse.statusLine_whole {resp : HttpResponse} (reason : 13 ∉ utf8 resp.reason)
    : headLines resp.statusLine = [resp.statusLine]
      ∧ resp.statusLine ≠ []
      ∧ contentLength? resp.statusLine = none := by
  have free : 13 ∉ resp.statusLine := by
    simp only [statusLine, List.mem_append, not_or]
    exact ⟨⟨⟨⟨by decide +kernel, carriageReturn_not_mem_number _⟩, by decide +kernel⟩,
      reason⟩, by decide +kernel⟩
  have first : utf8 "HTTP/1.1 " = 72 :: utf8 "TTP/1.1 " := by decide +kernel
  refine ⟨headLines_of_not_mem free, ?_, ?_⟩
  · simp [statusLine, first]
  · simp only [statusLine, first, List.cons_append]
    exact contentLength?_cons (by decide) (by decide)

/-- The line of the trace id is one line without a length, unless the id breaks it. -/
theorem HttpResponse.traceIdLine_whole {resp : HttpResponse}
    (traceId : 13 ∉ utf8 resp.context.traceId)
    : headLines resp.traceIdLine = [resp.traceIdLine]
      ∧ resp.traceIdLine ≠ []
      ∧ contentLength? resp.traceIdLine = none := by
  have free : 13 ∉ resp.traceIdLine := by
    simp only [traceIdLine, headerLine, List.mem_append, not_or]
    exact ⟨⟨by decide +kernel, by decide +kernel⟩, traceId⟩
  have first : utf8 "X-TraceId" = 88 :: utf8 "-TraceId" := by decide +kernel
  refine ⟨headLines_of_not_mem free, ?_, ?_⟩
  · simp [traceIdLine, headerLine, first]
  · simp only [traceIdLine, headerLine, first, List.cons_append]
    exact contentLength?_cons (by decide) (by decide)

/-- The line that says whether the stream is kept is one line without a length. -/
theorem HttpResponse.connectionLine_whole (resp : HttpResponse)
    : headLines resp.connectionLine = [resp.connectionLine]
      ∧ resp.connectionLine ≠ []
      ∧ contentLength? resp.connectionLine = none := by
  rw [connectionLine]
  cases resp.keepAlive <;> decide +kernel

/-- A head gives the length of its body exactly when its headers bring no empty line and give
that length and no other, when neither its reason nor its trace id breaks a line.
-/
theorem delimits_writeHeader_iff {resp : HttpResponse} (reason : 13 ∉ utf8 resp.reason)
    (traceId : 13 ∉ utf8 resp.context.traceId) (length : Nat)
    : Delimits resp.writeHeader length
      ↔ headerLengths resp.respHeaders = some [some length] := by
  obtain ⟨statusLines, status, statusNone⟩ := HttpResponse.statusLine_whole reason
  obtain ⟨traceLines, trace, traceNone⟩ := HttpResponse.traceIdLine_whole traceId
  obtain ⟨connectionLines, connection, connectionNone⟩ := resp.connectionLine_whole
  have serverLines : headLines serverLine = [serverLine] := by decide +kernel
  have server : serverLine ≠ [] := by decide +kernel
  have serverNone : contentLength? serverLine = none := by decide +kernel
  let block :=
    [resp.statusLine]
      ++ (headersLines resp.respHeaders
        ++ [resp.traceIdLine, resp.connectionLine, serverLine])
  have lines : headLines resp.writeHeader = block ++ [[], []] := by
    rw [headLines_writeHeader, statusLines, traceLines, connectionLines, serverLines]
    simp [block, headersLines]
  have lengths : contentLengths block = contentLengths (headersLines resp.respHeaders) := by
    simp [block, contentLengths, statusNone, traceNone, connectionNone, serverNone]
  have solid : (∀ line ∈ block, decide (line ≠ []))
      ↔ [] ∉ headersLines resp.respHeaders := by
    simp only [block, decide_eq_true_eq]
    constructor
    · exact fun nonempty mem => nonempty [] (by simp [mem]) rfl
    · intro absent line mem
      simp only [List.mem_append, List.mem_cons, List.not_mem_nil, or_false] at mem
      rcases mem with rfl | mem | rfl | rfl | rfl
      · exact status
      · exact fun empty => absent (empty ▸ mem)
      · exact trace
      · exact connection
      · exact server
  -- The head ends with its first empty line when all lines of the block are read.
  have all : blockLines resp.writeHeader = block ↔ [] ∉ headersLines resp.respHeaders := by
    rw [blockLines, lines, takeWhile_append_cons_iff (by simp), solid]
  rw [Delimits, headerLengths]
  by_cases broken : [] ∈ headersLines resp.respHeaders
  · rw [if_pos broken]
    refine iff_of_false (fun delimits => ?_) (by simp)
    rw [lines] at delimits
    exact all.mp (List.append_cancel_right delimits.1).symm broken
  · rw [if_neg broken, all.mpr broken, lengths, Option.some.injEq]
    exact and_iff_right lines

end Casket
