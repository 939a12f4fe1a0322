import Casket.Lib.Ring
import Casket.Lib.Runs
import Casket.WorkQ

/-! A send refines one offer around the ring of senders, read from the place after the
cursor. The cursor is in range unless failed sends emptied the list before it grew again.
-/

namespace Casket
namespace WorkQ

open scoped List

/-- The next send starts at a sender, or there is none. -/
def InRange (self : WorkQ) : Prop :=
  self.senders = [] ∨ self.pos < self.senders.length
  deriving Decidable

/-- The receivers in the order in which the next send comes to them. -/
def ring (self : WorkQ) : List Nat :=
  self.senders.rotate (self.pos + 1)

-----------------------------------------------------------------------------------------
-- One send
-----------------------------------------------------------------------------------------

/-- A loop that had a turn for every sender is not changed by one turn more, by induction
on the turns.
-/
theorem sendLoop_succ (alive : Nat → Bool) {turns : Nat} {self : WorkQ}
    (enough : self.senders.length < turns)
    : sendLoop alive (turns + 1) self = sendLoop alive turns self := by
  induction turns generalizing self with
  | zero => cases enough
  | succ turns ih =>
      rw [sendLoop, sendLoop]
      split
      · rfl
      · next filled =>
          dsimp only
          generalize (if self.pos = self.senders.length then 0 else self.pos) = pos
          split
          · rfl
          · next found =>
              split
              · rfl
              · refine ih ?_
                have within := (List.getElem?_eq_some_iff.mp found).1
                simp only [List.length_eraseIdx_of_lt within]
                omega

/-- What a send may do to the senders: it drops some that are gone, and leaves the cursor
at a sender.
-/
structure Drops (alive : Nat → Bool) (before after : WorkQ) : Prop where
  sublist : after.senders <+ before.senders
  living : after.senders.filter alive = before.senders.filter alive
  inRange : after.InRange

/-- From a cursor in range the loop offers the value around the senders from there.
Witness: induction on the turns, where a dropped sender is the head of the ring.
-/
theorem sendLoop_offer (alive : Nat → Bool) {turns pos : Nat} {senders : List Nat}
    (enough : senders.length < turns) (within : pos ≤ senders.length)
    : ∃ after,
        sendLoop alive turns ⟨pos, senders⟩ =
            .ok ((Lib.offer alive (senders.rotate pos)).1, after)
        ∧ after.ring = (Lib.offer alive (senders.rotate pos)).2
        ∧ Drops alive ⟨pos, senders⟩ after := by
  induction turns generalizing pos senders with
  | zero => cases enough
  | succ turns ih =>
      by_cases empty : senders = []
      · subst empty
        exact ⟨_, by simp [sendLoop, Lib.offer], by simp [ring, Lib.offer],
          .refl _, rfl, .inl rfl⟩
      have filled := List.length_pos_iff.mpr empty
      obtain ⟨place, wrapped⟩ :
          ∃ place, (if pos = senders.length then 0 else pos) = place := ⟨_, rfl⟩
      have bound : place < senders.length := by split at wrapped <;> omega
      have turned : senders.rotate pos = senders.rotate place := by
        split at wrapped
        · next last => rw [← wrapped, last, List.rotate_length, List.rotate_zero]
        · rw [wrapped]
      have split := Lib.rotate_getElem bound
      simp only [sendLoop, List.isEmpty_iff, empty, if_false, wrapped,
        List.getElem?_eq_getElem bound, turned]
      by_cases up : alive senders[place]
      · rw [if_pos up, split]
        refine ⟨⟨place, senders⟩, by simp [Lib.offer, up], ?_, .refl _, rfl, .inr bound⟩
        rw [ring, ← List.rotate_rotate, split]
        simp [Lib.offer, up]
      · have shorter := List.length_eraseIdx_of_lt bound
        have room : place ≤ (senders.eraseIdx place).length := by omega
        obtain ⟨after, sent, same, sublist, living, inRange⟩ := ih (by omega) room
        rw [Lib.eraseIdx_rotate bound, split, List.tail_cons] at sent same
        rw [if_neg up, split, Lib.offer, if_neg up]
        exact ⟨after, sent, same, sublist.trans (List.eraseIdx_sublist ..),
          living.trans (Lib.eraseIdx_filter bound up), inRange⟩

/-- A send from a cursor in range is one offer around the ring. -/
theorem send_offer (alive : Nat → Bool) {self : WorkQ} (ready : self.InRange)
    : ∃ after,
        self.send alive = .ok ((Lib.offer alive self.ring).1, after)
        ∧ after.ring = (Lib.offer alive self.ring).2
        ∧ Drops alive self after := by
  obtain ⟨pos, senders⟩ := self
  rcases ready with empty | within
  · cases empty
    exact ⟨⟨pos + 1, []⟩, rfl, by simp [ring, Lib.offer], .refl _, rfl, .inl rfl⟩
  · obtain ⟨after, sent, same, sublist, living, inRange⟩ :=
      sendLoop_offer alive (Nat.lt_succ_self _) (Nat.succ_le_of_lt within)
    exact ⟨after, sent, same, sublist, living, inRange⟩

/-- A send from a cursor past its senders stops the thread. -/
theorem send_panics (alive : Nat → Bool) {self : WorkQ} (past : ¬ self.InRange)
    : self.send alive = .error .workqIndex := by
  obtain ⟨filled, beyond⟩ := not_or.mp past
  have apart : self.pos + 1 ≠ self.senders.length := by omega
  have outside : self.senders[self.pos + 1]? = none := List.getElem?_eq_none (by omega)
  simp only [send, sendLoop, List.isEmpty_iff, filled, if_false, apart, outside]

/-- A send panics exactly when its cursor is past the senders. -/
theorem send_panics_iff (alive : Nat → Bool) (self : WorkQ)
    : self.send alive = .error .workqIndex ↔ ¬ self.InRange := by
  refine ⟨fun stopped ready => ?_, send_panics alive⟩
  obtain ⟨after, sent, _⟩ := send_offer alive ready
  rw [sent] at stopped
  cases stopped

end WorkQ
end Casket
