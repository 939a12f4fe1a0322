import Casket.Pythonexec.Wsgi

/-! The lines an application logs. Those of the `casket.logger` module have the tags they were
given, in their order, and then the ids of the request that is being served; those that are
written to `wsgi.errors` have a text and no ids.
-/

namespace Casket

-----------------------------------------------------------------------------------------
-- Lines
-----------------------------------------------------------------------------------------

inductive Level where
  | info
  | warn
  | error
  deriving DecidableEq, Repr

inductive Atom where
  | string (text : String)
  | bool (flag : Bool)
  | int (number : Int)
  deriving DecidableEq, Repr

structure Entry where
  key : String
  value : Atom
  deriving DecidableEq, Repr

structure LogLine where
  level : Level
  msg : String
  entries : List Entry
  deriving DecidableEq, Repr

-----------------------------------------------------------------------------------------
-- Tags
-----------------------------------------------------------------------------------------

/-- A python object as far as the logger looks at it: a text, unless it cannot be encoded, a
flag, a number, or anything else.
-/
inductive PyValue where
  | str (text : Option String)
  | bool (flag : Bool)
  | int (number : Int)
  | other
  deriving DecidableEq, Repr

/-- The exceptions `log` raises. -/
inductive LogError where
  | downcast
  | encode
  | type (message : String)
  deriving DecidableEq, Repr

/-- The numbers of an `i64`. -/
def FitsI64 (number : Int) : Prop :=
  -9223372036854775808 ≤ number ∧ number < 9223372036854775808

instance (number : Int) : Decidable (FitsI64 number) := inferInstanceAs (Decidable (_ ∧ _))

/-- `get_value`; a number that is no `i64` is a value of a bad type, too. -/
def getValue : PyValue → Except LogError Atom
  | .str none => .error .encode
  | .str (some text) => .ok (.string text)
  | .bool flag => .ok (.bool flag)
  | .int number =>
      if FitsI64 number then
        .ok (.int number)
      else
        .error (.type "bad type in log tags value")
  | .other => .error (.type "bad type in log tags value")

/-- One turn of the loop over the tags. -/
def tagEntry : PyValue × PyValue → Except LogError Entry
  | (.str key, value) =>
      match getValue value with
      | .error e => .error e
      | .ok value =>
          match key with
          | none => .error .encode
          | some key => .ok { key, value }
  | (.bool _, _) | (.int _, _) | (.other, _) => .error .downcast

-----------------------------------------------------------------------------------------
-- `log`
-----------------------------------------------------------------------------------------

/-- The entries of a request's context. -/
def contextEntries (ctx : Context) : List Entry :=
  [{ key := "trace_id", value := .string ctx.traceId },
    { key := "span_id", value := .string ctx.spanId }]
  ++ (ctx.parentId.map fun parentId =>
        { key := "parent_id", value := Atom.string parentId }).toList

/-- `log`, given the request-local data it looks into. -/
def log (level : Level) (msg : String) (keys : List (PyValue × PyValue)) (locals : ReqLocal)
    : Except LogError LogLine :=
  match keys.mapM tagEntry with
  | .error e => .error e
  | .ok entries =>
      .ok { level, msg, entries := entries ++ (locals.context.map contextEntries).getD [] }

namespace Logger

/-- The functions of the `logger` module; tags that are not given are an empty dictionary. -/
def info (msg : String) (tags : Option (List (PyValue × PyValue))) (locals : ReqLocal)
    : Except LogError LogLine :=
  log .info msg (tags.getD []) locals

def warn (msg : String) (tags : Option (List (PyValue × PyValue))) (locals : ReqLocal)
    : Except LogError LogLine :=
  log .warn msg (tags.getD []) locals

def error (msg : String) (tags : Option (List (PyValue × PyValue))) (locals : ReqLocal)
    : Except LogError LogLine :=
  log .error msg (tags.getD []) locals

/-- The function an application calls to log at some level. -/
def call : Level → String → Option (List (PyValue × PyValue)) → ReqLocal → Except LogError LogLine
  | .info => info
  | .warn => warn
  | .error => error

theorem call_eq (level : Level) (msg : String) (tags : Option (List (PyValue × PyValue)))
    (locals : ReqLocal)
    : call level msg tags locals = log level msg (tags.getD []) locals := by
  cases level <;> rfl

end Logger

/-- What may be logged as a tag. -/
def Loggable (tag : PyValue × PyValue) : Prop := ∃ entry, tagEntry tag = .ok entry

/-- A tag may be logged when its name is a text and its value is a text, a flag or an `i64`,
and the texts can be encoded.
-/
theorem loggable_iff (tag : PyValue × PyValue)
    : Loggable tag
      ↔ (∃ key, tag.1 = .str (some key))
        ∧ ((∃ text, tag.2 = .str (some text)) ∨ (∃ flag, tag.2 = .bool flag)
          ∨ ∃ number, tag.2 = .int number ∧ FitsI64 number) := by
  obtain ⟨name, value⟩ := tag
  have logged : (∃ atom, getValue value = .ok atom)
      ↔ ((∃ text, value = .str (some text)) ∨ (∃ flag, value = .bool flag)
        ∨ ∃ number, value = .int number ∧ FitsI64 number) := by
    cases value with
    | str text => cases text <;> simp [getValue]
    | bool flag => simp [getValue]
    | int number => by_cases fits : FitsI64 number <;> simp [getValue, fits]
    | other => simp [getValue]
  rw [← logged]
  cases name with
  | str key =>
      cases got : getValue value with
      | error e => simp [Loggable, tagEntry, got]
      | ok atom => cases key <;> simp [Loggable, tagEntry, got]
  | bool | int | other => simp [Loggable, tagEntry]

/-- A list of tags gives entries when each of them does, by induction on the tags. -/
theorem mapM_tagEntry_iff (keys : List (PyValue × PyValue))
    : (∃ entries, keys.mapM tagEntry = .ok entries) ↔ ∀ tag ∈ keys, Loggable tag := by
  induction keys with
  | nil => exact ⟨fun _ => nofun, fun _ => ⟨[], rfl⟩⟩
  | cons tag rest ih =>
      rw [List.forall_mem_cons, ← ih, Loggable, List.mapM_cons]
      cases tagEntry tag with
      | error e =>
          refine ⟨?_, ?_⟩
          · rintro ⟨entries, failed⟩
            cases failed
          · rintro ⟨⟨entry, failed⟩, -⟩
            cases failed
      | ok entry =>
          cases rest.mapM tagEntry with
          | error e =>
              refine ⟨?_, ?_⟩
              · rintro ⟨entries, failed⟩
                cases failed
              · rintro ⟨-, entries, failed⟩
                cases failed
          | ok entries => exact ⟨fun _ => ⟨⟨entry, rfl⟩, entries, rfl⟩, fun _ => ⟨_, rfl⟩⟩

/-- A call writes a line exactly when each of its tags may be logged. -/
theorem log_ok_iff (level : Level) (msg : String) (keys : List (PyValue × PyValue))
    (locals : ReqLocal)
    : (∃ line, log level msg keys locals = .ok line) ↔ ∀ tag ∈ keys, Loggable tag := by
  rw [← mapM_tagEntry_iff, log]
  cases keys.mapM tagEntry with
  | error e => simp
  | ok entries => simp

/-- A line has the entries of its tags and those of the request's context. -/
theorem log_spec {level : Level} {msg : String} {keys : List (PyValue × PyValue)}
    {locals : ReqLocal} {line : LogLine} (logged : log level msg keys locals = .ok line)
    : ∃ entries,
        keys.mapM tagEntry = .ok entries
        ∧ line
          = { level, msg, entries := entries ++ (locals.context.map contextEntries).getD [] } := by
  unfold log at logged
  split at logged
  · cases logged
  · next entries tagged => exact ⟨entries, tagged, (Except.ok.inj logged).symm⟩

-----------------------------------------------------------------------------------------
-- `wsgi.errors`
-----------------------------------------------------------------------------------------

/-- The exceptions `writelines` raises: one of its argument or of that one's iterator, an item
that is no text, or one that cannot be encoded.
-/
inductive WriteError where
  | iterator
  | downcast
  | encode
  deriving DecidableEq, Repr

namespace WsgiError

/-- `WsgiError::write`. The line says nothing of the request. -/
def write (error : String) : LogLine where
  level := .error
  msg := "application error"
  entries := [{ key := "error", value := .string error }]

/-- `WsgiError::writelines`, given what it gets of its argument: items, or an exception. The
lines that stand before one that fails are written.
-/
def writelines : List (Option PyValue) → List LogLine × Except WriteError Unit
  | [] => ([], .ok ())
  | none :: _ => ([], .error .iterator)
  | some (.str (some line)) :: lines =>
      let (written, result) := writelines lines
      (write line :: written, result)
  | some (.str none) :: _ => ([], .error .encode)
  | some (.bool _) :: _ | some (.int _) :: _ | some .other :: _ => ([], .error .downcast)

/-- Items are some texts, and behind them none or first one that is no text. -/
structure TextsUntil (items : List (Option PyValue)) (texts : List String)
    (rest : List (Option PyValue))
    : Prop where
  split : items = texts.map (fun text => some (.str (some text))) ++ rest
  stops : ∀ text, rest.head? ≠ some (some (.str (some text)))

/-- The items that are written are the texts in front of the first that is none, and a call
raises exactly when there is such a one. Witness: induction on the items.
-/
theorem writelines_spec (items : List (Option PyValue))
    : ∃ texts rest,
        TextsUntil items texts rest
        ∧ (writelines items).1 = texts.map write
        ∧ ((writelines items).2 = .ok () ↔ rest = []) := by
  induction items with
  | nil => exact ⟨[], [], ⟨rfl, by simp⟩, rfl, by simp [writelines]⟩
  | cons item items ih =>
      have fails (lines : (writelines (item :: items)).1 = [])
          (raises : (writelines (item :: items)).2 ≠ .ok ())
          (bad : ∀ text, item ≠ some (.str (some text)))
          : ∃ texts rest,
              TextsUntil (item :: items) texts rest
              ∧ (writelines (item :: items)).1 = texts.map write
              ∧ ((writelines (item :: items)).2 = .ok () ↔ rest = []) :=
        ⟨[], item :: items, ⟨rfl, by simpa using bad⟩, lines, by simpa using raises⟩
      cases item with
      | none => exact fails rfl (by simp [writelines]) (by simp)
      | some value =>
          cases value with
          | str text =>
              cases text with
              | none => exact fails rfl (by simp [writelines]) (by simp)
              | some text =>
                  obtain ⟨texts, rest, until_, lines, result⟩ := ih
                  refine ⟨text :: texts, rest, ⟨?_, until_.stops⟩, ?_, result⟩
                  · rw [until_.split]
                    rfl
                  · exact congrArg (write text :: ·) lines
          | bool | int | other => exact fails rfl (by simp [writelines]) (by simp)

end WsgiError
end Casket
