import Casket.Basic

/-! `workq`: a sender hands each value to the next of its receivers, in turn, and forgets
receivers that are gone.
-/

namespace Casket

/-- `workq::Sender`, whose channels are named by their receivers. -/
structure WorkQ where
  pos : Nat
  senders : List Nat
  deriving DecidableEq, Repr

namespace WorkQ

def new : WorkQ := ⟨0, []⟩

/-- `new_recv`, for a receiver of some name. -/
def newRecv (self : WorkQ) (receiver : Nat) : WorkQ :=
  { self with senders := self.senders ++ [receiver] }

/-- The loop of `send`, which drops one sender in each turn but the last. The receiver that
takes the value is returned, or `none` once there is no sender left.
-/
def sendLoop (alive : Nat → Bool) : Nat → WorkQ → Except Panic (Option Nat × WorkQ)
  | 0, self => .ok (none, self)
  | turns + 1, self =>
      if self.senders.isEmpty then
        .ok (none, self)
      else
        let pos := if self.pos = self.senders.length then 0 else self.pos
        match self.senders[pos]? with
        | none => .error .workqIndex
        | some receiver =>
            if alive receiver then
              .ok (some receiver, { self with pos })
            else
              sendLoop alive turns { pos, senders := self.senders.eraseIdx pos }

/-- `send`, where a receiver is alive or gone when the loop comes to it. There are enough
turns to drop every sender.
-/
def send (alive : Nat → Bool) (self : WorkQ) : Except Panic (Option Nat × WorkQ) :=
  sendLoop alive (self.senders.length + 1) { self with pos := self.pos + 1 }

end WorkQ
end Casket
