import Casket.Http.Types

/-! `config`: the settings a process reads from its environment. A number is only parsed, so
every value its type holds is accepted.
-/

namespace Casket

-----------------------------------------------------------------------------------------
-- `SocketAddrV4::from_str`
-----------------------------------------------------------------------------------------

structure SocketAddrV4 where
  octets : List UInt8
  port : UInt16
  deriving DecidableEq, Repr

namespace SocketAddrV4

/-- A number at the front, below a bound: its digits may be limited, and a zero in front of
others may be refused.
-/
def readNumber (bound : Nat) (maxDigits : Option Nat) (allowZeroPrefix : Bool)
    (text : List Char)
    : Option (Nat × List Char) :=
  let digits := text.takeWhile Char.isDigit
  if maxDigits.any (· < digits.length) then
    none
  else if !allowZeroPrefix && digits.head? = some '0' && 1 < digits.length then
    none
  else
    match decimal? digits with
    | none => none
    | some value =>
        if value < bound then some (value, text.dropWhile Char.isDigit) else none

def readGivenChar (target : Char) : List Char → Option (List Char)
  | c :: rest => if c = target then some rest else none
  | [] => none

/-- Some octets, each after a dot except the first. -/
def readOctets : Nat → List Char → Option (List UInt8 × List Char)
  | 0, text => some ([], text)
  | count + 1, text =>
      match readNumber 256 (some 3) false text with
      | none => none
      | some (octet, text) =>
          match if count = 0 then some text else readGivenChar '.' text with
          | none => none
          | some text =>
              (readOctets count text).map fun (octets, text) =>
                (UInt8.ofNat octet :: octets, text)

/-- Four octets, a colon and a port, and nothing after them. -/
def parse (text : String) : Option SocketAddrV4 :=
  match readOctets 4 text.toList with
  | none => none
  | some (octets, text) =>
      match (readGivenChar ':' text).bind (readNumber (2 ^ 16) none true) with
      | some (port, []) => some { octets, port := UInt16.ofNat port }
      | _ => none

end SocketAddrV4

-----------------------------------------------------------------------------------------
-- `Config::from_env`
-----------------------------------------------------------------------------------------

/-- `Duration::from_secs`. -/
def fromSecs (secs : Nat) : Duration := secs * 10 ^ 9

namespace Config

/-- `value.parse().map_err(|_| error)`. -/
def parseOr {α : Type} (parsed : Option α) (error : String) : Except String α :=
  match parsed with
  | none => .error error
  | some value => .ok value

/-- A switch is a number that is 0 or 1. -/
def parseSwitch (value errStr : String) : Except String Bool :=
  match parseOr (parseUsize value) errStr with
  | .error e => .error e
  | .ok 0 => .ok false
  | .ok 1 => .ok true
  | .ok _ => .error errStr

/-- `u64` and `usize` parse alike. -/
def parseSecs (value errStr : String) : Except String Duration :=
  (parseOr (parseUsize value) errStr).map fromSecs

/-- One variable of the environment. The listener is bound to the whole address, of which
only the port is kept.
-/
def readVar (slf : Config) : String × String → Except String Config
  | ("CASKET_BIND_ADDR", value) =>
      (parseOr (SocketAddrV4.parse value)
        "CASKET_BIND_ADDR invalid - AddrParseError(SocketV4)").map
        fun addr => { slf with port := addr.port }
  | ("CASKET_NUM_WORKERS", value) =>
      (parseOr (parseUsize value) "CASKET_NUM_WORKERS must be positive integer").map
        fun numWorkers => { slf with numWorkers }
  | ("CASKET_NUM_THREADS_PER_WORKER", value) =>
      (parseOr (parseUsize value) "CASKET_NUM_THREADS_PER-WORKER must be positive integer").map
        fun numThreads => { slf with numThreads }
  | ("CASKET_MAX_CONNECTIONS", value) =>
      (parseOr (parseUsize value) "CASKET_MAX_CONNECTIONS must be positive integer").map
        fun maxConns => { slf with maxConns }
  | ("CASKET_MAX_REQUESTS", value) =>
      (parseOr (parseUsize value) "CASKET_MAX_REQUESTS must be positive integer").map
        fun maxRequests => { slf with maxRequests }
  | ("CASKET_RETURN_STACKTRACE_IN_BODY", value) =>
      (parseSwitch value "CASKET_RETURN_STACKTRACE_IN_BODY must be 0 or 1").map
        fun bodyStacktrace => { slf with bodyStacktrace }
  | ("CASKET_LOG_HTTP_RESPONSE", value) =>
      (parseSwitch value "CASKET_LOG_HTTP_RESPONSE must be 0 or 1").map
        fun logResponse => { slf with logResponse }
  | ("CASKET_CTRLC_WAIT_TIME", value) =>
      (parseSecs value "CASKET_CTRLC_WAIT_TIME must be a positive integer").map
        fun ctrlcWaitTime => { slf with ctrlcWaitTime }
  | ("CASKET_REQUEST_READ_TIMEOUT", value) =>
      (parseSecs value "CASKET_CTRLC_READ_TIMEOUT must be a positive integer").map
        fun requestReadTimeout => { slf with requestReadTimeout }
  | ("CASKET_PYTHON_CODE_GATEWAY_TIMEOUT", value) =>
      (parseSecs value "CASKET_PYTHON_CODE_GATEWAY_TIMEOUT must be a positive integer").map
        fun pythonCodeTimeout => { slf with pythonCodeTimeout }
  | _ => .ok slf

/-- The variables in the order the environment lists them; the first error ends it. -/
def fromEnv (hostname : String) (vars : List (String × String)) : Except String Config :=
  vars.foldlM readVar (.default hostname)

-----------------------------------------------------------------------------------------
-- What is accepted
-----------------------------------------------------------------------------------------

/-- Some whole seconds that a 64-bit word counts. -/
def WholeSecs (span : Duration) : Prop := ∃ secs < 2 ^ 64, span = fromSecs secs

/-- Every number fits the word it is parsed into. -/
structure Fits (cfg : Config) : Prop where
  numWorkers : cfg.numWorkers < 2 ^ 64
  numThreads : cfg.numThreads < 2 ^ 64
  maxConns : cfg.maxConns < 2 ^ 64
  maxRequests : cfg.maxRequests < 2 ^ 64
  ctrlcWaitTime : WholeSecs cfg.ctrlcWaitTime
  requestReadTimeout : WholeSecs cfg.requestReadTimeout
  pythonCodeTimeout : WholeSecs cfg.pythonCodeTimeout

theorem default_fits (hostname : String) : (Config.default hostname).Fits where
  numWorkers := (by decide : 3 < 2 ^ 64)
  numThreads := (by decide : 2 < 2 ^ 64)
  maxConns := (by decide : 256 < 2 ^ 64)
  maxRequests := (by decide : 64 < 2 ^ 64)
  ctrlcWaitTime := ⟨10, by decide, rfl⟩
  requestReadTimeout := ⟨30, by decide, rfl⟩
  pythonCodeTimeout := ⟨10, by decide, rfl⟩

theorem parseUsize_lt {text : String} {value : Nat} (parsed : parseUsize text = some value)
    : value < 2 ^ 64 := by
  have bound := (Option.filter_eq_some_iff.mp parsed).2
  exact of_decide_eq_true bound

theorem parseOr_ok {α : Type} {parsed : Option α} {error : String} {value : α}
    (ok : parseOr parsed error = .ok value)
    : parsed = some value := by
  unfold parseOr at ok
  split at ok
  · cases ok
  · exact congrArg some (Except.ok.inj ok)

theorem map_ok {α β : Type} {parsed : Except String α} {f : α → β} {value : β}
    (ok : parsed.map f = .ok value)
    : ∃ first, parsed = .ok first ∧ f first = value := by
  cases parsed with
  | error e => cases ok
  | ok first => exact ⟨first, rfl, Except.ok.inj ok⟩

theorem parseSecs_ok {value errStr : String} {span : Duration}
    (ok : parseSecs value errStr = .ok span)
    : WholeSecs span := by
  obtain ⟨secs, parsed, rfl⟩ := map_ok ok
  exact ⟨secs, parseUsize_lt (parseOr_ok parsed), rfl⟩

/-- One more variable keeps the numbers in their words, one case for each name. -/
theorem readVar_fits {slf cfg : Config} {var : String × String} (fits : slf.Fits)
    (read : readVar slf var = .ok cfg)
    : cfg.Fits := by
  unfold readVar at read
  split at read
  case h_1 | h_6 | h_7 =>
    obtain ⟨value, -, rfl⟩ := map_ok read
    exact { fits with }
  case h_2 =>
    obtain ⟨numWorkers, parsed, rfl⟩ := map_ok read
    exact { fits with numWorkers := parseUsize_lt (parseOr_ok parsed) }
  case h_3 =>
    obtain ⟨numThreads, parsed, rfl⟩ := map_ok read
    exact { fits with numThreads := parseUsize_lt (parseOr_ok parsed) }
  case h_4 =>
    obtain ⟨maxConns, parsed, rfl⟩ := map_ok read
    exact { fits with maxConns := parseUsize_lt (parseOr_ok parsed) }
  case h_5 =>
    obtain ⟨maxRequests, parsed, rfl⟩ := map_ok read
    exact { fits with maxRequests := parseUsize_lt (parseOr_ok parsed) }
  case h_8 =>
    obtain ⟨ctrlcWaitTime, parsed, rfl⟩ := map_ok read
    exact { fits with ctrlcWaitTime := parseSecs_ok parsed }
  case h_9 =>
    obtain ⟨requestReadTimeout, parsed, rfl⟩ := map_ok read
    exact { fits with requestReadTimeout := parseSecs_ok parsed }
  case h_10 =>
    obtain ⟨pythonCodeTimeout, parsed, rfl⟩ := map_ok read
    exact { fits with pythonCodeTimeout := parseSecs_ok parsed }
  case h_11 => exact Except.ok.inj read ▸ fits

/-- So does a whole environment, by induction on its variables. -/
theorem fromEnv_fits {hostname : String} {vars : List (String × String)} {cfg : Config}
    (accepted : fromEnv hostname vars = .ok cfg)
    : cfg.Fits := by
  have go (vars : List (String × String))
      : ∀ slf : Config, slf.Fits → vars.foldlM readVar slf = .ok cfg → cfg.Fits := by
    induction vars with
    | nil =>
        intro slf fits read
        exact Except.ok.inj read ▸ fits
    | cons var rest ih =>
        intro slf fits read
        rw [List.foldlM_cons] at read
        cases first : readVar slf var with
        | error e =>
            rw [first] at read
            cases read
        | ok next =>
            rw [first] at read
            exact ih next (readVar_fits fits first) read
  exact go vars _ (default_fits hostname) accepted

example
    : (fromEnv "casket" [("PATH", "/bin"), ("CASKET_BIND_ADDR", "127.0.0.1:0080")]).map
        Config.port
      = .ok 80 := by
  decide +kernel

example
    : fromEnv "casket" [("CASKET_BIND_ADDR", "127.0.00.1:80")]
      = .error "CASKET_BIND_ADDR invalid - AddrParseError(SocketV4)" := by
  decide +kernel

end Config
end Casket
