import Casket.Worker.PythonThreads
import Mathlib.Algebra.Order.Group.Multiset
import Mathlib.Data.Finset.Dedup

/-! What the two calls on the python threads move: requests go to the threads, and each
response becomes an action or settles a timeout.
-/

namespace Casket

namespace PythonThreads

variable {self after : PythonThreads} {pool outside : PythonPool}

/-- Sending a queue hands each of its requests to some thread and counts it, by induction on
the queue.
-/
theorem sendLoop_spec {requests : List (Token × HttpRequest)} {alive : List (List Nat)}
    (sent : self.sendLoop pool requests alive = .ok (after, outside, .ok ()))
    : ∃ handed : List (Nat × Token),
        outside = { pool with outstanding := pool.outstanding ++ handed }
        ∧ handed.map Prod.snd = requests.map Prod.fst
        ∧ after.numPendingReqs = self.numPendingReqs + requests.length
        ∧ after.queuedReqs = self.queuedReqs
        ∧ after.timedOutReqs = self.timedOutReqs := by
  induction requests generalizing self pool alive with
  | nil =>
      obtain ⟨rfl, same⟩ := Prod.mk.inj (Except.ok.inj sent)
      obtain ⟨rfl, -⟩ := Prod.mk.inj same
      exact ⟨[], by rw [List.append_nil], rfl, rfl, rfl, rfl⟩
  | cons request rest ih =>
      simp only [sendLoop] at sent
      split at sent
      · cases sent
      · cases sent
      · next thread reqSend _ =>
          obtain ⟨handed, rfl, tokens, count, queued, timedOut⟩ := ih sent
          refine ⟨(thread, request.1) :: handed, ?_, ?_, ?_, queued, timedOut⟩
          · rw [List.append_assoc, List.singleton_append]
          · rw [List.map_cons, List.map_cons, tokens]
          · rw [count, List.length_cons]
            dsimp only
            omega

/-- What sending the queued requests does: the queue is empty afterwards. -/
theorem sendQueuedRequests_spec {alive : List (List Nat)}
    (sent : self.sendQueuedRequests pool alive = .ok (after, outside, .ok ()))
    : ∃ handed : List (Nat × Token),
        outside = { pool with outstanding := pool.outstanding ++ handed }
        ∧ handed.map Prod.snd = self.queuedReqs.map Prod.fst
        ∧ after.numPendingReqs = self.numPendingReqs + self.queuedReqs.length
        ∧ after.queuedReqs = []
        ∧ after.timedOutReqs = self.timedOutReqs :=
  sendLoop_spec sent

/-- The action a response becomes. -/
def newResponse (response : Token × HttpResponse) : ActionResult :=
  .ok (.serverNewResponse response.1 response.2)

/-- The action a start message becomes. -/
def newTimeout (start : Token × SystemTime) : ActionResult :=
  .ok (.serverPythonCodeTimeoutNew start.1 start.2)

/-- Each response taken becomes an action or settles a timeout, by induction on them. -/
theorem takeLoop_spec {results more : List ActionResult}
    {responses : List (Token × HttpResponse)}
    (took : self.takeLoop results responses = .ok (after, more))
    : ∃ delivered : List (Token × HttpResponse),
        more = results ++ delivered.map newResponse
        ∧ delivered.Sublist responses
        ∧ ((responses.map Prod.fst : List Token) : Multiset Token) + after.timedOutReqs.val
          = ((delivered.map Prod.fst : List Token) : Multiset Token) + self.timedOutReqs.val
        ∧ self.numPendingReqs = after.numPendingReqs + responses.length
        ∧ after.queuedReqs = self.queuedReqs
        ∧ ((responses.map Prod.fst).Nodup →
          ∀ tk ∈ delivered.map Prod.fst, tk ∉ self.timedOutReqs) := by
  induction responses generalizing self results with
  | nil =>
      obtain ⟨rfl, rfl⟩ := Prod.mk.inj (Except.ok.inj took)
      exact ⟨[], by rw [List.map_nil, List.append_nil], .slnil, rfl, rfl, rfl, nofun⟩
  | cons response rest ih =>
      simp only [takeLoop] at took
      split at took
      · cases took
      · next pending =>
          split at took
          · next timedOut =>
              obtain ⟨delivered, rfl, sub, moved, count, queued, live⟩ := ih took
              refine ⟨delivered, rfl, sub.cons _, ?_, ?_, queued, ?_⟩
              · rw [List.map_cons, ← Multiset.cons_coe, Multiset.cons_add, moved,
                  ← Multiset.add_cons, Finset.erase_val, Multiset.cons_erase timedOut]
              · rw [List.length_cons]
                dsimp only at count
                omega
              · intro once tk member late
                obtain ⟨apart, once⟩ := List.nodup_cons.mp once
                refine live once tk member (Finset.mem_erase.mpr ⟨?_, late⟩)
                rintro rfl
                exact apart ((sub.map _).subset member)
          · next inTime =>
              obtain ⟨delivered, rfl, sub, moved, count, queued, live⟩ := ih took
              refine ⟨response :: delivered, ?_, sub.cons_cons _, ?_, ?_, queued, ?_⟩
              · rw [List.map_cons, List.append_assoc, List.singleton_append]
                rfl
              · rw [List.map_cons, List.map_cons, ← Multiset.cons_coe, ← Multiset.cons_coe,
                  Multiset.cons_add, Multiset.cons_add, moved]
              · rw [List.length_cons]
                dsimp only at count
                omega
              · intro once tk member
                rcases List.mem_cons.mp member with rfl | later
                · exact inTime
                · exact live (List.nodup_cons.mp once).2 tk later

/-- What taking responses does when neither channel is closed. -/
theorem takeResponses_spec {observed : Observed} {results : List ActionResult}
    (took : self.takeResponses pool [] observed = .ok (after, outside, results, .ok ()))
    : ∃ delivered : List (Token × HttpResponse),
        results
          = (pool.codeStarts.take observed.codeStarts).map newTimeout
            ++ delivered.map newResponse
        ∧ delivered.Sublist (pool.responses.take observed.responses)
        ∧ (((pool.responses.take observed.responses).map Prod.fst : List Token)
            : Multiset Token)
              + after.timedOutReqs.val
          = ((delivered.map Prod.fst : List Token) : Multiset Token) + self.timedOutReqs.val
        ∧ self.numPendingReqs
          = after.numPendingReqs + (pool.responses.take observed.responses).length
        ∧ after.queuedReqs = self.queuedReqs
        ∧ outside
          = { pool with
              codeStarts := pool.codeStarts.drop observed.codeStarts
              responses := pool.responses.drop observed.responses }
        ∧ (((pool.responses.take observed.responses).map Prod.fst).Nodup →
          ∀ tk ∈ delivered.map Prod.fst, tk ∉ self.timedOutReqs) := by
  obtain ⟨starts, startsEnd, count, countEnd⟩ := observed
  simp only [takeResponses] at took
  cases startsEnd with
  | disconnected => cases took
  | empty =>
      simp only at took
      split at took
      · cases took
      · next taken =>
          cases countEnd with
          | disconnected => cases took
          | empty =>
              obtain ⟨rfl, same⟩ := Prod.mk.inj (Except.ok.inj took)
              obtain ⟨elsewhere, same⟩ := Prod.mk.inj same
              obtain ⟨rfl, -⟩ := Prod.mk.inj same
              obtain ⟨delivered, same, sub, moved, left, queued, live⟩ := takeLoop_spec taken
              exact ⟨delivered, same, sub, moved, left, queued, elsewhere.symm, live⟩

/-- Taking responses panics only when more come than are counted, by induction on them. -/
theorem takeLoop_error {results : List ActionResult}
    {responses : List (Token × HttpResponse)} {panic : Panic}
    (failed : self.takeLoop results responses = .error panic)
    : panic = .numPendingReqsUnderflow ∧ self.numPendingReqs < responses.length := by
  induction responses generalizing self results with
  | nil => cases failed
  | cons response rest ih =>
      simp only [takeLoop] at failed
      split at failed
      · next none =>
          rw [none]
          exact ⟨(Except.error.inj failed).symm, Nat.succ_pos _⟩
      · split at failed
        · obtain ⟨same, fewer⟩ := ih failed
          refine ⟨same, ?_⟩
          rw [List.length_cons]
          dsimp only at fewer
          omega
        · obtain ⟨same, fewer⟩ := ih failed
          refine ⟨same, ?_⟩
          rw [List.length_cons]
          dsimp only at fewer
          omega

theorem takeResponses_error {observed : Observed} {panic : Panic}
    (failed : self.takeResponses pool [] observed = .error panic)
    : panic = .numPendingReqsUnderflow
      ∧ self.numPendingReqs < (pool.responses.take observed.responses).length := by
  simp only [takeResponses] at failed
  split at failed
  · cases failed
  · split at failed
    · next stopped =>
        obtain rfl := Except.error.inj failed
        exact takeLoop_error stopped
    · split at failed
      · cases failed
      · cases failed

end PythonThreads
end Casket
