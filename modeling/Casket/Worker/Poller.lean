import Casket.Worker.Actions

/-! `poller`: the events to deliver when a source becomes ready, and the timer queue. -/

namespace Casket

structure TimerEntry where
  token : Token
  timeout : SystemTime
  event : Event
  deriving DecidableEq, Repr

/-- `Poller`, with the interests its `mio` registry holds for the sources by their tokens.
The entries of the heap have no order of their own.
-/
structure Poller where
  registry : TokenMap Interest
  eventsRegRead : TokenMap Event
  eventsRegWrite : TokenMap Event
  timerq : List TimerEntry
  deriving DecidableEq

namespace Poller

def new : Poller := ⟨∅, ∅, ∅, []⟩

/-- The entries that are due, which the loop pops until the earliest is later than `now`. -/
def due (self : Poller) (now : SystemTime) : List TimerEntry :=
  self.timerq.filter (·.timeout ≤ now)

/-- An order in which the heap can give its due entries. -/
def Pops (self : Poller) (now : SystemTime) (popped : List TimerEntry) : Prop :=
  popped.Perm (self.due now) ∧ popped.Pairwise (·.timeout ≤ ·.timeout)

instance (self : Poller) (now : SystemTime) (popped : List TimerEntry)
    : Decidable (self.Pops now popped) :=
  inferInstanceAs (Decidable (_ ∧ _))

/-- One polled event: the event to deliver for each way its source is ready. -/
def takeRegistered (self : Poller) (mioEv : MioEvent)
    : Except Panic (Poller × List (Token × Event)) :=
  let read : Except Panic (Poller × List (Token × Event)) :=
    if mioEv.readable then
      match self.eventsRegRead.lookup mioEv.token with
      | none => .error .readReg
      | some ev =>
          .ok
            ({ self with eventsRegRead := self.eventsRegRead.erase mioEv.token },
              [(mioEv.token, ev)])
    else
      .ok (self, [])
  match read with
  | .error panic => .error panic
  | .ok (self, events) =>
      if mioEv.writable then
        match self.eventsRegWrite.lookup mioEv.token with
        | none => .error .writeReg
        | some ev =>
            .ok
              ({ self with eventsRegWrite := self.eventsRegWrite.erase mioEv.token },
                events ++ [(mioEv.token, ev)])
      else
        .ok (self, events)

/-- The loop over the polled events. -/
def takeAllRegistered
    : Poller → List (Token × Event) → List MioEvent
      → Except Panic (Poller × List (Token × Event))
  | self, events, [] => .ok (self, events)
  | self, events, mioEv :: rest =>
      match self.takeRegistered mioEv with
      | .error panic => .error panic
      | .ok (self, more) => self.takeAllRegistered (events ++ more) rest

/-- `tick`, given the order of the due entries and the result of the poll, which leaves no
events when it fails.
-/
def tick (self : Poller) (events : List (Token × Event)) (now : SystemTime)
    (popped : List TimerEntry) (polled : Except IoError (List MioEvent))
    : Except Panic (Poller × Except RuntimeError (List (Token × Event))) :=
  let events := events ++ popped.map fun entry => (entry.token, entry.event)
  let self := { self with timerq := self.timerq.filter (now < ·.timeout) }
  match polled with
  | .error e =>
      if e.interrupted then
        .ok (self, .ok (events ++ [(0, .ctrlC)]))
      else
        .ok (self, .error (.io "worker failed to poll" e))
  | .ok mioEvents =>
      match self.takeAllRegistered events mioEvents with
      | .error panic => .error panic
      | .ok (self, events) => .ok (self, .ok events)

/-- A call on the registry: nothing changes there when it fails. -/
def call (self : Poller) (tk : Token) (call : RegistryCall) (result : Except IoError Unit)
    : Poller :=
  match result with
  | .error _ => self
  | .ok () => { self with registry := call.apply tk self.registry }

def registerRead (self : Poller) (tk : Token) (ev : Event) (result : Except IoError Unit)
    : Poller :=
  { self with eventsRegRead := self.eventsRegRead.insert tk ev }.call tk
    (.register ⟨true, false⟩) result

def deregister (self : Poller) (tk : Token) (result : Except IoError Unit) : Poller :=
  self.call tk .deregister result

def registerWrite (self : Poller) (tk : Token) (ev : Event) (result : Except IoError Unit)
    : Poller :=
  { self with eventsRegWrite := self.eventsRegWrite.insert tk ev }.call tk
    (.register ⟨false, true⟩) result

def reregisterWrite (self : Poller) (tk : Token) (ev : Event) (result : Except IoError Unit)
    : Poller :=
  { self with eventsRegWrite := self.eventsRegWrite.insert tk ev }.call tk
    (.reregister ⟨false, true⟩) result

def reregisterRead (self : Poller) (tk : Token) (ev : Event) (result : Except IoError Unit)
    : Poller :=
  { self with eventsRegRead := self.eventsRegRead.insert tk ev }.call tk
    (.reregister ⟨true, false⟩) result

def reregisterRw (self : Poller) (tk : Token) (readEv writeEv : Event)
    (result : Except IoError Unit)
    : Poller :=
  { self with
      eventsRegRead := self.eventsRegRead.insert tk readEv
      eventsRegWrite := self.eventsRegWrite.insert tk writeEv }.call tk
    (.reregister ⟨true, true⟩) result

def timerEvent (self : Poller) (token : Token) (timeout : SystemTime) (event : Event)
    : Poller :=
  { self with timerq := self.timerq ++ [{ token, timeout, event }] }

end Poller
end Casket
