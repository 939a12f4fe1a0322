import Mathlib.Algebra.Order.Group.Multiset
import Mathlib.Data.Finset.Basic
import Mathlib.Data.Finset.Dedup
import Mathlib.Tactic.Abel

/-! Requests that are queued, sent off and answered late or given up, as a ledger. The one who
waits for a request may give up on it once it was sent; its response is then discarded.
-/

namespace Lib

variable {τ : Type*}

/-- Where each request is, and what happened to all of them so far. -/
@[ext]
structure Ledger (τ : Type*) where
  came : Multiset τ
  early : Multiset τ
  queued : Multiset τ
  sent : Multiset τ
  outstanding : Multiset τ
  counter : Nat
  taken : Multiset τ
  delivered : Multiset τ
  answering : Multiset τ
  waiting : Finset τ
  late : Finset τ
  givenUp : Multiset τ

namespace Ledger

/-- What holds of every ledger, whatever tokens its requests have. -/
structure Balanced (ledger : Ledger τ) : Prop where
  sent : ledger.sent = ledger.taken + ledger.outstanding
  counter : ledger.counter = ledger.outstanding.card
  came : ledger.queued + ledger.sent + ledger.early ≤ ledger.came
  delivered : ledger.delivered ≤ ledger.taken
  answering : ledger.answering ≤ ledger.delivered
  waiting
    : ledger.waiting.val + ledger.late.val
      ≤ ledger.queued + ledger.outstanding + ledger.answering

/-- What holds when no two requests had the same token. -/
structure Exact (ledger : Ledger τ) : Prop where
  waiting
    : ledger.waiting.val + ledger.late.val
      = ledger.queued + ledger.outstanding + ledger.answering
  late : ∀ tk ∈ ledger.late, tk ∈ ledger.outstanding
  discarded
    : ledger.taken + ledger.late.val = ledger.delivered + ledger.givenUp

/-- The ledger before anything happened. -/
def empty : Ledger τ := ⟨0, 0, 0, 0, 0, 0, 0, 0, 0, ∅, ∅, 0⟩

theorem balanced_empty : (empty : Ledger τ).Balanced where
  sent := rfl
  counter := rfl
  came := le_rfl
  delivered := le_rfl
  answering := le_rfl
  waiting := le_rfl

theorem exact_empty : (empty : Ledger τ).Exact where
  waiting := rfl
  late := nofun
  discarded := rfl

/-- The ways a ledger goes on. -/
inductive Step [DecidableEq τ] : Ledger τ → Ledger τ → Prop
  | receive {ledger} (more : Multiset τ)
    : Step ledger { ledger with came := ledger.came + more, early := more + ledger.early }
  | forget {ledger early} (fewer : early ≤ ledger.early) : Step ledger { ledger with early }
  | queue {ledger early tk} (was : {tk} + early ≤ ledger.early)
    : Step ledger
        { ledger with
          early
          queued := {tk} + ledger.queued
          waiting := insert tk ledger.waiting }
  | send {ledger}
    : Step ledger
        { ledger with
          queued := 0
          sent := ledger.sent + ledger.queued
          outstanding := ledger.outstanding + ledger.queued
          counter := ledger.counter + ledger.queued.card }
  | take {ledger tks delivered outstanding late counter}
    (were : ledger.outstanding = tks + outstanding)
    (some : delivered ≤ tks)
    (moved : tks + Finset.val late = delivered + ledger.late.val)
    (live : tks.Nodup → ∀ tk ∈ delivered, tk ∉ ledger.late)
    (count : ledger.counter = counter + tks.card)
    : Step ledger
        { ledger with
          outstanding
          late
          counter
          taken := ledger.taken + tks
          delivered := ledger.delivered + delivered
          answering := ledger.answering + delivered }
  | giveUp {ledger tk} (waits : tk ∈ ledger.waiting) (sent : tk ∈ ledger.sent)
    (settled : ledger.answering = 0)
    : Step ledger
        { ledger with
          waiting := ledger.waiting.erase tk
          late := insert tk ledger.late
          givenUp := ledger.givenUp + {tk} }
  | answer {ledger tk answering} (waits : tk ∈ ledger.waiting)
    (was : ledger.answering = {tk} + answering)
    : Step ledger { ledger with answering, waiting := ledger.waiting.erase tk }

variable {ledger after : Ledger τ} {tk : τ}

-----------------------------------------------------------------------------------------
-- Distinct tokens
-----------------------------------------------------------------------------------------

/-- No token is twice among the requests that are early, queued or sent. -/
theorem Balanced.once (balanced : ledger.Balanced) (distinct : ledger.came.Nodup)
    : (ledger.queued + ledger.sent + ledger.early).Nodup :=
  Multiset.nodup_of_le balanced.came distinct

/-- What is waited for was queued or sent. -/
theorem Balanced.waited (balanced : ledger.Balanced)
    : ledger.queued + ledger.outstanding + ledger.answering ≤ ledger.queued + ledger.sent := by
  rw [balanced.sent, add_assoc, add_comm ledger.taken]
  refine add_le_add_right (add_le_add_right ?_ ledger.outstanding) ledger.queued
  exact balanced.answering.trans balanced.delivered

/-- What is early is not waited for yet. -/
theorem Balanced.fresh (balanced : ledger.Balanced) (distinct : ledger.came.Nodup)
    (early : tk ∈ ledger.early)
    : tk ∉ ledger.queued + ledger.outstanding + ledger.answering := by
  have apart := (Multiset.nodup_add.mp (balanced.once distinct)).2.2
  intro member
  exact Multiset.disjoint_left.mp apart (Multiset.mem_of_le balanced.waited member) early

/-- What is outstanding was not taken, and is outstanding once. -/
theorem Balanced.untaken (balanced : ledger.Balanced) (distinct : ledger.came.Nodup)
    : (ledger.taken + ledger.outstanding).Nodup := by
  rw [← balanced.sent]
  have both := (Multiset.nodup_add.mp (balanced.once distinct)).1
  exact (Multiset.nodup_add.mp both).2.1

/-- What is waited for was not given up. -/
theorem Exact.apart (exact : ledger.Exact) (balanced : ledger.Balanced)
    (distinct : ledger.came.Nodup) (waits : tk ∈ ledger.waiting)
    : tk ∉ ledger.late := by
  have both := (Multiset.nodup_add.mp (balanced.once distinct)).1
  have rest := Multiset.nodup_of_le balanced.waited both
  rw [← exact.waiting] at rest
  exact fun late => Multiset.disjoint_left.mp (Multiset.nodup_add.mp rest).2.2 waits late

/-- Nothing is waited for once nothing is queued, outstanding or being answered. -/
theorem Balanced.settled (balanced : ledger.Balanced) (unqueued : ledger.queued = 0)
    (answered : ledger.outstanding = 0) (handled : ledger.answering = 0)
    : ledger.waiting = ∅ := by
  have none := balanced.waiting
  rw [unqueued, answered, handled, zero_add, zero_add] at none
  exact Finset.val_eq_zero.mp (Multiset.le_zero.mp ((Multiset.le_add_right _ _).trans none))

/-- With nothing being answered, what is waited for is queued, or outstanding and not given
up.
-/
theorem Exact.mem_waiting (exact : ledger.Exact) (balanced : ledger.Balanced)
    (distinct : ledger.came.Nodup) (handled : ledger.answering = 0)
    : tk ∈ ledger.waiting
      ↔ tk ∈ ledger.queued ∨ tk ∈ ledger.outstanding ∧ tk ∉ ledger.late := by
  have all := exact.waiting
  rw [handled, add_zero] at all
  constructor
  · intro waits
    have there : tk ∈ ledger.queued + ledger.outstanding :=
      all ▸ Multiset.mem_add.mpr (.inl waits)
    have apart := exact.apart balanced distinct waits
    exact (Multiset.mem_add.mp there).imp_right (⟨·, apart⟩)
  · have both := (Multiset.nodup_add.mp (balanced.once distinct)).1
    have unsent := (Multiset.nodup_add.mp both).2.2
    have member (there : tk ∈ ledger.queued + ledger.outstanding) (live : tk ∉ ledger.late)
        : tk ∈ ledger.waiting :=
      (Multiset.mem_add.mp (all ▸ there)).resolve_right live
    rintro (queued | ⟨outstanding, live⟩)
    · refine member (Multiset.mem_add.mpr (.inl queued)) fun late =>
        Multiset.disjoint_left.mp unsent queued ?_
      rw [balanced.sent]
      exact Multiset.mem_add.mpr (.inr (exact.late tk late))
    · exact member (Multiset.mem_add.mpr (.inr outstanding)) live

/-- What is being answered is still waited for. -/
theorem Exact.mem_waiting_of_answering (exact : ledger.Exact) (balanced : ledger.Balanced)
    (distinct : ledger.came.Nodup) (answering : tk ∈ ledger.answering)
    : tk ∈ ledger.waiting := by
  have there : tk ∈ ledger.waiting.val + ledger.late.val := by
    rw [exact.waiting]
    exact Multiset.mem_add.mpr (.inr answering)
  refine (Multiset.mem_add.mp there).resolve_right fun late => ?_
  have taken := Multiset.mem_of_le (balanced.answering.trans balanced.delivered) answering
  have apart := (Multiset.nodup_add.mp (balanced.untaken distinct)).2.2
  exact Multiset.disjoint_left.mp apart taken (exact.late tk late)

-----------------------------------------------------------------------------------------
-- What every step keeps
-----------------------------------------------------------------------------------------

variable [DecidableEq τ]

/-- An insertion adds at most one item. -/
theorem insert_val_le (tk : τ) (items : Finset τ) : (insert tk items).val ≤ {tk} + items.val := by
  rw [Finset.insert_val, Multiset.singleton_add]
  exact Multiset.ndinsert_le.mpr ⟨Multiset.le_cons_self _ _, Multiset.mem_cons_self _ _⟩

theorem insert_val {items : Finset τ} (fresh : tk ∉ items)
    : (insert tk items).val = {tk} + items.val := by
  rw [Finset.insert_val_of_notMem fresh, Multiset.singleton_add]

/-- An item and the others are all of them. -/
theorem erase_val {items : Finset τ} (there : tk ∈ items)
    : items.val = {tk} + (items.erase tk).val := by
  rw [Finset.erase_val, Multiset.singleton_add, Multiset.cons_erase there]

/-- Every step keeps the balance. -/
theorem Step.balanced (step : Step ledger after) (balanced : ledger.Balanced)
    : after.Balanced := by
  cases step with
  | receive more =>
      refine { balanced with came := ?_ }
      calc ledger.queued + ledger.sent + (more + ledger.early)
        _ = ledger.queued + ledger.sent + ledger.early + more := by abel
        _ ≤ ledger.came + more := add_le_add_left balanced.came more
  | forget fewer =>
      exact { balanced with came := (add_le_add_right fewer _).trans balanced.came }
  | @queue early tk was =>
      refine { balanced with came := ?_, waiting := ?_ }
      · calc {tk} + ledger.queued + ledger.sent + early
          _ = ledger.queued + ledger.sent + ({tk} + early) := by abel
          _ ≤ ledger.queued + ledger.sent + ledger.early := add_le_add_right was _
          _ ≤ ledger.came := balanced.came
      · calc (insert tk ledger.waiting).val + ledger.late.val
          _ ≤ {tk} + ledger.waiting.val + ledger.late.val :=
            add_le_add_left (insert_val_le tk ledger.waiting) _
          _ = {tk} + (ledger.waiting.val + ledger.late.val) := add_assoc _ _ _
          _ ≤ {tk} + (ledger.queued + ledger.outstanding + ledger.answering) :=
            add_le_add_right balanced.waiting _
          _ = {tk} + ledger.queued + ledger.outstanding + ledger.answering := by abel
  | send =>
      exact
        { sent := by
            dsimp only
            rw [balanced.sent, add_assoc]
          counter := by
            dsimp only
            rw [balanced.counter, Multiset.card_add]
          came := by
            dsimp only
            rw [zero_add, add_comm ledger.sent]
            exact balanced.came
          delivered := balanced.delivered
          answering := balanced.answering
          waiting := by
            dsimp only
            rw [zero_add, add_comm ledger.outstanding]
            exact balanced.waiting }
  | @take tks delivered outstanding late counter were some moved _ count =>
      exact
        { sent := by
            dsimp only
            rw [balanced.sent, were, add_assoc]
          counter := by
            have all := balanced.counter
            rw [count, were, Multiset.card_add] at all
            dsimp only
            omega
          came := balanced.came
          delivered := add_le_add balanced.delivered some
          answering := add_le_add_left balanced.answering _
          waiting := by
            have all := balanced.waiting
            rw [were] at all
            refine (add_le_add_iff_left tks).mp ?_
            calc tks + (ledger.waiting.val + late.val)
              _ = ledger.waiting.val + (tks + late.val) := by abel
              _ = ledger.waiting.val + ledger.late.val + delivered := by rw [moved]; abel
              _ ≤ ledger.queued + (tks + outstanding) + ledger.answering + delivered :=
                add_le_add_left all delivered
              _ = tks + (ledger.queued + outstanding + (ledger.answering + delivered)) := by
                abel }
  | @giveUp tk waits =>
      refine { balanced with waiting := ?_ }
      calc (ledger.waiting.erase tk).val + (insert tk ledger.late).val
        _ ≤ (ledger.waiting.erase tk).val + ({tk} + ledger.late.val) :=
          add_le_add_right (insert_val_le tk ledger.late) _
        _ = {tk} + (ledger.waiting.erase tk).val + ledger.late.val := by abel
        _ = ledger.waiting.val + ledger.late.val := by rw [erase_val waits]
        _ ≤ ledger.queued + ledger.outstanding + ledger.answering := balanced.waiting
  | @answer tk answering waits was =>
      refine { balanced with answering := ?_, waiting := ?_ }
      · have all := balanced.answering
        rw [was] at all
        exact (Multiset.le_add_left _ _).trans all
      · have all := balanced.waiting
        rw [was, erase_val waits] at all
        refine (add_le_add_iff_left {tk}).mp ?_
        calc {tk} + ((ledger.waiting.erase tk).val + ledger.late.val)
          _ = {tk} + (ledger.waiting.erase tk).val + ledger.late.val := by abel
          _ ≤ ledger.queued + ledger.outstanding + ({tk} + answering) := all
          _ = {tk} + (ledger.queued + ledger.outstanding + answering) := by abel

/-- What was sent stays sent. -/
theorem Step.sent (step : Step ledger after) : ledger.sent ≤ after.sent := by
  cases step with
  | send => exact Multiset.le_add_right _ _
  | _ => exact le_rfl

/-- What was delivered or given up stays so. -/
theorem Step.delivered (step : Step ledger after) : ledger.delivered ≤ after.delivered := by
  cases step with
  | take => exact Multiset.le_add_right _ _
  | _ => exact le_rfl

theorem Step.givenUp (step : Step ledger after) : ledger.givenUp ≤ after.givenUp := by
  cases step with
  | giveUp => exact Multiset.le_add_right _ _
  | _ => exact le_rfl

/-- What came stays. -/
theorem Step.came (step : Step ledger after) : ledger.came ≤ after.came := by
  cases step with
  | receive => exact Multiset.le_add_right _ _
  | _ => exact le_rfl

/-- Among distinct tokens, what is still given up after some responses were taken is not
among them. Witness: it would have to be both delivered and given up before.
-/
theorem not_taken {tks delivered : Multiset τ} {late before : Finset τ}
    (some : delivered ≤ tks) (moved : tks + late.val = delivered + before.val)
    (live : ∀ tk ∈ delivered, tk ∉ before) (still : tk ∈ late)
    : tk ∈ before ∧ tk ∉ tks := by
  have counts := congrArg (Multiset.count tk) moved
  rw [Multiset.count_add, Multiset.count_add,
    Multiset.count_eq_one_of_mem late.nodup still] at counts
  have atMost := Multiset.count_le_of_le tk some
  have one := Multiset.nodup_iff_count_le_one.mp before.nodup tk
  have dead : ¬ (0 < delivered.count tk ∧ 0 < before.val.count tk) := by
    rintro ⟨given, kept⟩
    exact live tk (Multiset.count_pos.mp given) (Multiset.count_pos.mp kept)
  constructor
  · exact Multiset.count_pos.mp (by omega)
  · exact Multiset.count_eq_zero.mp (by omega)

/-- Every step keeps the accounts exact while tokens are distinct. -/
theorem Step.exact (step : Step ledger after) (balanced : ledger.Balanced)
    (distinct : after.came.Nodup) (exact : ledger.Exact)
    : after.Exact := by
  cases step with
  | receive | forget => exact { exact with }
  | @queue early tk was =>
      have there : tk ∈ ledger.early :=
        Multiset.mem_of_le was (Multiset.mem_add.mpr (.inl (Multiset.mem_singleton_self tk)))
      have fresh : tk ∉ ledger.waiting := by
        intro waits
        refine balanced.fresh distinct there ?_
        rw [← exact.waiting]
        exact Multiset.mem_add.mpr (.inl waits)
      refine { exact with waiting := ?_ }
      calc (insert tk ledger.waiting).val + ledger.late.val
        _ = {tk} + (ledger.waiting.val + ledger.late.val) := by
          rw [insert_val fresh, add_assoc]
        _ = {tk} + ledger.queued + ledger.outstanding + ledger.answering := by
          rw [exact.waiting]
          abel
  | send =>
      refine { exact with waiting := ?_, late := ?_ }
      · calc ledger.waiting.val + ledger.late.val
          _ = ledger.queued + ledger.outstanding + ledger.answering := exact.waiting
          _ = 0 + (ledger.outstanding + ledger.queued) + ledger.answering := by abel
      · exact fun tk late => Multiset.mem_add.mpr (.inl (exact.late tk late))
  | @take tks delivered outstanding late counter were some moved live _ =>
      have once : tks.Nodup := by
        have both := (Multiset.nodup_add.mp (balanced.untaken distinct)).2.1
        rw [were] at both
        exact (Multiset.nodup_add.mp both).1
      refine { waiting := ?_, late := ?_, discarded := ?_ }
      · refine (add_right_inj tks).mp ?_
        calc tks + (ledger.waiting.val + late.val)
          _ = ledger.waiting.val + (tks + late.val) := by abel
          _ = ledger.waiting.val + ledger.late.val + delivered := by rw [moved]; abel
          _ = ledger.queued + (tks + outstanding) + ledger.answering + delivered := by
            rw [exact.waiting, were]
          _ = tks + (ledger.queued + outstanding + (ledger.answering + delivered)) := by abel
      · intro tk still
        obtain ⟨before, untaken⟩ := not_taken some moved (live once) still
        have there := exact.late tk before
        rw [were, Multiset.mem_add] at there
        exact there.resolve_left untaken
      · calc ledger.taken + tks + late.val
          _ = ledger.taken + ledger.late.val + delivered := by rw [add_assoc, moved]; abel
          _ = ledger.delivered + delivered + ledger.givenUp := by rw [exact.discarded]; abel
  | @giveUp tk waits sent settled =>
      have fresh := exact.apart balanced distinct waits
      refine { waiting := ?_, late := ?_, discarded := ?_ }
      · calc (ledger.waiting.erase tk).val + (insert tk ledger.late).val
          _ = {tk} + (ledger.waiting.erase tk).val + ledger.late.val := by
            rw [insert_val fresh]; abel
          _ = ledger.queued + ledger.outstanding + ledger.answering := by
            rw [← erase_val waits, exact.waiting]
      · intro other member
        rcases Finset.mem_insert.mp member with rfl | before
        · have there : other ∈ ledger.queued + ledger.outstanding + ledger.answering := by
            rw [← exact.waiting]
            exact Multiset.mem_add.mpr (.inl waits)
          rw [settled, add_zero, Multiset.mem_add] at there
          have both := (Multiset.nodup_add.mp (balanced.once distinct)).1
          have apart := (Multiset.nodup_add.mp both).2.2
          exact there.resolve_left fun queued => Multiset.disjoint_left.mp apart queued sent
        · exact exact.late other before
      · calc ledger.taken + (insert tk ledger.late).val
          _ = ledger.taken + ledger.late.val + {tk} := by rw [insert_val fresh]; abel
          _ = ledger.delivered + (ledger.givenUp + {tk}) := by rw [exact.discarded, add_assoc]
  | @answer tk answering waits was =>
      refine { exact with waiting := ?_ }
      refine (add_right_inj {tk}).mp ?_
      calc {tk} + ((ledger.waiting.erase tk).val + ledger.late.val)
        _ = ledger.waiting.val + ledger.late.val := by rw [erase_val waits, add_assoc]
        _ = {tk} + (ledger.queued + ledger.outstanding + answering) := by
          rw [exact.waiting, was]
          abel

/-- What is outstanding and was given up is what is late. -/
theorem Exact.mem_late (exact : ledger.Exact) (balanced : ledger.Balanced)
    (distinct : ledger.came.Nodup)
    : tk ∈ ledger.late ↔ tk ∈ ledger.outstanding ∧ tk ∈ ledger.givenUp := by
  have counts := congrArg (Multiset.count tk) exact.discarded
  rw [Multiset.count_add, Multiset.count_add] at counts
  have untaken (outstanding : tk ∈ ledger.outstanding)
      : ledger.taken.count tk = 0 ∧ ledger.delivered.count tk = 0 := by
    have apart := (Multiset.nodup_add.mp (balanced.untaken distinct)).2.2
    have absent := fun taken => Multiset.disjoint_left.mp apart taken outstanding
    refine ⟨Multiset.count_eq_zero.mpr absent, Multiset.count_eq_zero.mpr ?_⟩
    exact fun delivered => absent (Multiset.mem_of_le balanced.delivered delivered)
  constructor
  · intro late
    have outstanding := exact.late tk late
    obtain ⟨taken, delivered⟩ := untaken outstanding
    have one := Multiset.count_pos.mpr (Finset.mem_val.mpr late)
    exact ⟨outstanding, Multiset.count_pos.mp (by omega)⟩
  · rintro ⟨outstanding, givenUp⟩
    obtain ⟨taken, delivered⟩ := untaken outstanding
    have one := Multiset.count_pos.mpr givenUp
    exact Finset.mem_val.mp (Multiset.count_pos.mp (by omega))

/-- A response that was taken was delivered once, or its request was given up once. -/
theorem Exact.taken_once (exact : ledger.Exact) (balanced : ledger.Balanced)
    (distinct : ledger.came.Nodup) (taken : tk ∈ ledger.taken)
    : ledger.delivered.count tk + ledger.givenUp.count tk = 1 := by
  have counts := congrArg (Multiset.count tk) exact.discarded
  rw [Multiset.count_add, Multiset.count_add] at counts
  have both := Multiset.nodup_add.mp (balanced.untaken distinct)
  have one := Multiset.count_eq_one_of_mem both.1 taken
  have settled : ledger.late.val.count tk = 0 :=
    Multiset.count_eq_zero.mpr fun late =>
      Multiset.disjoint_left.mp both.2.2 taken (exact.late tk late)
  omega

/-- Nothing is both delivered and given up. -/
theorem Exact.exclusive (exact : ledger.Exact) (balanced : ledger.Balanced)
    (distinct : ledger.came.Nodup) (delivered : tk ∈ ledger.delivered)
    : tk ∉ ledger.givenUp := by
  have taken := Multiset.mem_of_le balanced.delivered delivered
  have one := exact.taken_once balanced distinct taken
  have some := Multiset.count_pos.mpr delivered
  exact Multiset.count_eq_zero.mp (by omega)

end Ledger
end Lib
