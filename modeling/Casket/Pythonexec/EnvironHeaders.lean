import Mathlib
import Casket.Lib.Replace
import Casket.Worker.HostHeader

/-! The entries of the request's own headers in the dictionary of an application: which
names share one, and which value it has.
-/

namespace Casket

-----------------------------------------------------------------------------------------
-- The key of a header
-----------------------------------------------------------------------------------------

/-- The key under which `build_environ` sets the value of a header. -/
def headerKey (name : String) : String := "HTTP_" ++ name.toUpper.replace "-" "_"

/-- Two names agree character by character, up to the case of letters and up to `-`
against `_`.
-/
def SameEntry (name other : String) : Prop :=
  List.Forall₂
    (fun c d => c.toLower = d.toLower ∨ (c = '-' ∨ c = '_') ∧ (d = '-' ∨ d = '_'))
    name.toList other.toList

/-- What becomes of each character of a name. -/
def keyChar (c : Char) : Char := Lib.swapChar '-' '_' c.toUpper

theorem toList_headerKey (name : String)
    : (headerKey name).toList = "HTTP_".toList ++ name.toList.map keyChar := by
  have dash : "-" = String.singleton '-' := by decide
  have underscore : "_" = String.singleton '_' := by decide
  rw [headerKey, String.toList_append, dash, underscore, Lib.toList_replace, String.toUpper,
    String.toList_map, List.map_map]
  rfl

/-- A character that is no letter is what only itself becomes in upper case. -/
theorem toUpper_eq_iff {c mark : Char} (plain : mark.isAlpha = false)
    : c.toUpper = mark ↔ c = mark := by
  have small : ∀ d : Char, d.isAlpha = false → ¬ d.isLower := fun d other lower => by
    simp [Char.isAlpha, lower] at other
  constructor
  · rintro rfl
    rw [Char.isAlpha_toUpper_eq_isAlpha] at plain
    exact (Char.toUpper_eq_of_not_isLower (small c plain)).symm
  · rintro rfl
    exact Char.toUpper_eq_of_not_isLower (small c plain)

/-- Two characters are the same in upper case when they are in lower case. -/
theorem toUpper_inj {c d : Char} : c.toUpper = d.toUpper ↔ c.toLower = d.toLower := by
  constructor
  · intro same
    rw [← Char.toLower_toUpper_eq_toLower c, same, Char.toLower_toUpper_eq_toLower]
  · intro same
    rw [← Char.toUpper_toLower_eq_toUpper c, same, Char.toUpper_toLower_eq_toUpper]

/-- Two characters become one exactly when they differ in case, or are both separators. -/
theorem keyChar_eq_iff {c d : Char}
    : keyChar c = keyChar d
      ↔ c.toLower = d.toLower ∨ (c = '-' ∨ c = '_') ∧ (d = '-' ∨ d = '_') := by
  have dash (e : Char) : e.toUpper = '-' ↔ e = '-' := toUpper_eq_iff (by decide)
  have underscore (e : Char) : e.toUpper = '_' ↔ e = '_' := toUpper_eq_iff (by decide)
  rw [keyChar, keyChar, Lib.swapChar, Lib.swapChar, ← toUpper_inj]
  simp only [dash]
  split
  · next first =>
      split
      · next second => simp [first, second]
      · next other =>
          simp only [first, other, false_or, true_or, true_and]
          rw [eq_comm, underscore]
          constructor
          · exact .inr
          · rintro (same | same)
            · exact absurd ((dash d).mp same.symm) other
            · exact same
  · next first =>
      split
      · next second =>
          simp only [second, first, false_or, true_or, and_true]
          rw [underscore]
          constructor
          · exact .inr
          · rintro (same | same)
            · exact absurd ((dash c).mp same) first
            · exact same
      · next other =>
          simp only [first, other, false_or]
          constructor
          · exact .inl
          · rintro (same | ⟨rfl, rfl⟩)
            · exact same
            · rfl

/-- Two headers share an entry exactly when their names agree so far. -/
theorem headerKey_eq_iff {name other : String}
    : headerKey name = headerKey other ↔ SameEntry name other := by
  rw [← String.toList_inj, toList_headerKey, toList_headerKey, List.append_cancel_left_eq,
    SameEntry, ← List.forall₂_eq_eq_eq, List.forall₂_map_left_iff, List.forall₂_map_right_iff]
  simp only [keyChar_eq_iff]

-----------------------------------------------------------------------------------------
-- The entry of a header
-----------------------------------------------------------------------------------------

/-- The other entries have keys that start with another letter. -/
theorem environItems_headers (server : String × UInt16) (req : HttpRequest) {key : String}
    (front : key.toList.head? = some 'H')
    : (environItems server req).filter (·.1 = key)
      = (headerEntries req.headers).filter (·.1 = key) := by
  have other : ∀ standard ∈ ["REQUEST_METHOD", "SCRIPT_NAME", "PATH_INFO", "QUERY_STRING",
      "CONTENT_TYPE", "CONTENT_LENGTH", "SERVER_NAME", "SERVER_PORT", "SERVER_PROTOCOL",
      "wsgi.version", "wsgi.url_scheme", "wsgi.input", "wsgi.errors", "wsgi.multithread",
      "wsgi.multiprocess", "wsgi.run_once", "casket.trace_ctx"],
      standard.toList.head? ≠ some 'H' := by
    decide
  have apart : ∀ {standard}, standard.toList.head? ≠ some 'H' → standard ≠ key := by
    rintro standard another rfl
    exact another front
  replace other := fun standard member => apart (other standard member)
  simp only [List.forall_mem_cons] at other
  simp only [environItems, List.filter_append, filter_entry]
  simp [other]

/-- The entry of a header has the value of the last one with its key. -/
theorem lookup_headerKey (server : String × UInt16) (req : HttpRequest) (name : String)
    : (buildEnviron server req).1.lookup (headerKey name)
      = (req.headers.filter (headerKey ·.1 = headerKey name)).getLast?.map
          fun h => .text h.2 := by
  have front : (headerKey name).toList.head? = some 'H' := by
    rw [toList_headerKey]
    rfl
  have entries
      : (headerEntries req.headers).filter (·.1 = headerKey name)
        = (req.headers.filter (headerKey ·.1 = headerKey name)).map
            fun h => (headerKey h.1, .text h.2) := by
    rw [headerEntries, List.filter_map]
    rfl
  rw [buildEnviron, lookup_environ, environItems_headers server req front, entries,
    List.getLast?_map, Option.map_map, AList.lookup_empty, Option.or_none]
  rfl

-----------------------------------------------------------------------------------------
-- The headers of an accepted request
-----------------------------------------------------------------------------------------

/-- The loop keeps every header, with its value as text. Witness: induction on the headers.
-/
theorem HeadFields.loop_headers {rng : Rng} {headers : List (String × Bytes)}
    {self after : HeadFields} (accepted : self.loop rng headers = .ok after)
    : ∃ texts,
        after.headers = self.headers ++ texts
        ∧ headers.map (fun h => (h.1, fromUtf8 h.2))
          = texts.map fun h => (h.1, some h.2) := by
  induction headers generalizing self with
  | nil =>
      obtain rfl := Except.ok.inj accepted
      exact ⟨[], (List.append_nil _).symm, rfl⟩
  | cons h rest ih =>
      obtain ⟨between, first, accepted⟩ := loop_cons accepted
      obtain ⟨value, text, -, -, kept, -⟩ := header_spec first
      obtain ⟨texts, added, same⟩ := ih accepted
      refine ⟨(h.1, value) :: texts, ?_, ?_⟩
      · rw [added, kept, List.append_assoc, List.singleton_append]
      · rw [List.map_cons, List.map_cons, same, text]

/-- An accepted request has the headers of its head. -/
theorem PartialHttpReq.new_headers {crates : Crates} {rng : Rng} {request : ParsedRequest}
    {req : PartialHttpReq} (accepted : new crates rng request = .ok (.ok req))
    : request.headers.map (fun h => (h.1, fromUtf8 h.2))
      = req.headers.map fun h => (h.1, some h.2) := by
  obtain ⟨fields, -, -, looped, -, -, -, -, -, -, -, headers⟩ := new_inv accepted
  obtain ⟨texts, added, same⟩ := HeadFields.loop_headers looped
  rw [same, headers, added]
  rfl

/-- The last item that passes a test, with none behind it. -/
theorem getLast?_filter_eq_some {α : Type} {items : List α} {test : α → Bool} {item : α}
    (last : (items.filter test).getLast? = some item)
    : ∃ front back,
        items = front ++ item :: back ∧ test item ∧ ∀ later ∈ back, test later = false := by
  rw [List.getLast?_filter, List.find?_eq_some_iff_append] at last
  obtain ⟨passes, behind, front, reversed, failing⟩ := last
  refine ⟨front.reverse, behind.reverse, ?_, passes, ?_⟩
  · rw [← List.reverse_reverse items, reversed]
    simp
  · simpa using failing

/-- Every header of an accepted request has its entry, which holds the value of the last one
that shares it.
-/
theorem environ_headers {crates : Crates} {rng : Rng} {request : ParsedRequest}
    {req : PartialHttpReq} (accepted : PartialHttpReq.new crates rng request = .ok (.ok req))
    (server : String × UInt16) (rest : Bytes)
    : request.headers.map (fun h => (h.1, fromUtf8 h.2))
        = req.headers.map (fun h => (h.1, some h.2))
      ∧ (∀ h ∈ req.headers,
          ∃ front last back,
            req.headers = front ++ last :: back
            ∧ SameEntry last.1 h.1
            ∧ (∀ later ∈ back, ¬ SameEntry later.1 h.1)
            ∧ (buildEnviron server (req.withBody rest).toHttpRequest).1.lookup (headerKey h.1)
              = some (.text last.2))
      ∧ ∀ name other, headerKey name = headerKey other ↔ SameEntry name other := by
  refine ⟨PartialHttpReq.new_headers accepted, ?_, fun _ _ => headerKey_eq_iff⟩
  intro h member
  have lookup :=
    lookup_headerKey server (req.withBody rest).toHttpRequest h.1
  have kept : (req.withBody rest).toHttpRequest.headers = req.headers := rfl
  rw [kept] at lookup
  have some_ : req.headers.filter (headerKey ·.1 = headerKey h.1) ≠ [] :=
    List.ne_nil_of_mem (List.mem_filter.mpr ⟨member, by simp⟩)
  have last := List.getLast?_eq_some_getLast some_
  rw [last] at lookup
  obtain ⟨front, back, split, same, apart⟩ := getLast?_filter_eq_some last
  simp only [decide_eq_true_eq, decide_eq_false_iff_not, headerKey_eq_iff] at same apart
  exact ⟨front, _, back, split, same, apart, lookup⟩

-----------------------------------------------------------------------------------------
-- Values that are lost and names that collide
-----------------------------------------------------------------------------------------

/-- Every value is found in the entry of its header. -/
def KeepsValues (server : String × UInt16) (req : HttpRequest) : Prop :=
  ∀ h ∈ req.headers,
    ∃ text,
      (buildEnviron server req).1.lookup (headerKey h.1) = some (.text text)
      ∧ h.2.toList <:+: text.toList

/-- Headers share an entry only if their names are the same in some case. -/
def KeepsApart (req : HttpRequest) : Prop :=
  ∀ h ∈ req.headers, ∀ other ∈ req.headers,
    headerKey h.1 = headerKey other.1 → eqIgnoreAsciiCase h.1 other.1

/-- A request for the root of the host `a` with two more headers. -/
def twoHeaders (first second : String) : ParsedRequest :=
  { hostRequest "a" with
    headers := (hostRequest "a").headers ++ [(first, utf8 "1"), (second, utf8 "2")] }

/-- The headers it is accepted with. -/
def twoHeaderTexts (first second : String) : Option (List (String × String)) :=
  match PartialHttpReq.new .onHosts (ReadCall.of []).rng (twoHeaders first second) with
  | .ok (.ok req) => some req.headers
  | _ => none

theorem twoHeaderTexts_some {first second : String} {headers : List (String × String)}
    (texts : twoHeaderTexts first second = some headers)
    : ∃ req,
        PartialHttpReq.new .onHosts (ReadCall.of []).rng (twoHeaders first second)
          = .ok (.ok req)
        ∧ req.headers = headers := by
  unfold twoHeaderTexts at texts
  split at texts
  · next req new => exact ⟨req, new, Option.some.inj texts⟩
  · cases texts

/-- The first of two headers of one name is lost. -/
theorem environ_headers_repeated
    : ∃ req,
        PartialHttpReq.new .onHosts (ReadCall.of []).rng (twoHeaders "X-A" "X-A")
          = .ok (.ok req)
        ∧ ∃ front last back,
            req.headers = front ++ last :: back
            ∧ SameEntry last.1 "X-A"
            ∧ (∀ later ∈ back, ¬ SameEntry later.1 "X-A")
            ∧ (buildEnviron ("h", 80) (req.withBody []).toHttpRequest).1.lookup
                (headerKey "X-A")
              = some (.text last.2) := by
  obtain ⟨req, new, headers⟩ :=
    twoHeaderTexts_some (show twoHeaderTexts "X-A" "X-A" =
      some [("Host", "a"), ("X-A", "1"), ("X-A", "2")] by decide +kernel)
  have member : ("X-A", "1") ∈ req.headers := by simp [headers]
  exact ⟨req, new, (environ_headers new ("h", 80) []).2.1 _ member⟩

/-- Two headers of one name, of which the second value is found alone, and two headers with
other names that have one key.
-/
theorem environ_overwrites
    : (∃ req,
        PartialHttpReq.new .onHosts (ReadCall.of []).rng (twoHeaders "X-A" "X-A")
          = .ok (.ok req)
        ∧ ¬ KeepsValues ("h", 80) req.toHttpRequest)
      ∧ ∃ req,
          PartialHttpReq.new .onHosts (ReadCall.of []).rng (twoHeaders "X-A" "X_A")
            = .ok (.ok req)
          ∧ ¬ KeepsApart req.toHttpRequest := by
  constructor
  · obtain ⟨req, new, headers⟩ :=
      twoHeaderTexts_some (show twoHeaderTexts "X-A" "X-A" =
        some [("Host", "a"), ("X-A", "1"), ("X-A", "2")] by decide +kernel)
    refine ⟨req, new, fun keeps => ?_⟩
    have kept : req.toHttpRequest.headers = [("Host", "a"), ("X-A", "1")] ++ [("X-A", "2")] :=
      headers
    obtain ⟨text, found, inside⟩ := keeps ("X-A", "1") (by simp [kept])
    rw [lookup_headerKey, kept, List.filter_append] at found
    simp only [List.filter_cons_of_pos, decide_true, List.filter_nil,
      List.getLast?_concat, Option.map_some, Option.some.injEq,
      EnvironValue.text.injEq] at found
    subst found
    exact absurd inside (by decide)
  · obtain ⟨req, new, headers⟩ :=
      twoHeaderTexts_some (show twoHeaderTexts "X-A" "X_A" =
        some [("Host", "a"), ("X-A", "1"), ("X_A", "2")] by decide +kernel)
    refine ⟨req, new, fun apart => ?_⟩
    have kept : req.toHttpRequest.headers = [("Host", "a"), ("X-A", "1"), ("X_A", "2")] :=
      headers
    have oneKey : headerKey "X-A" = headerKey "X_A" := by
      rw [← String.toList_inj, toList_headerKey, toList_headerKey]
      decide
    have same := apart ("X-A", "1") (by simp [kept]) ("X_A", "2") (by simp [kept]) oneKey
    exact absurd same (by decide)

end Casket
