import Casket.Worker.Delivery

/-! The body an application yields: which of its chunks `BytesIter` gives, when the streaming
loop ends, and which header `execute` has taken by then.
-/

namespace Casket

-----------------------------------------------------------------------------------------
-- The steps of an iterator
-----------------------------------------------------------------------------------------

namespace IterResult

def chunk? : IterResult → Option Bytes
  | .chunk bytes => some bytes
  | .stop | .notBytes _ | .raised _ => none

/-- `next_body_chunk` fails. -/
def fails : IterResult → Bool
  | .notBytes _ | .raised _ => true
  | .stop | .chunk _ => false

/-- The iterator is exhausted or raises; a value that is not bytes is yielded like others. -/
def ends : IterResult → Bool
  | .stop | .raised _ => true
  | .chunk _ | .notBytes _ => false

/-- A step that neither stops nor fails has a chunk. -/
theorem eq_chunk {result : IterResult} (going : result ≠ .stop)
    (works : result.fails = false)
    : ∃ bytes, result = .chunk bytes := by
  cases result with
  | stop => exact absurd rfl going
  | chunk bytes => exact ⟨bytes, rfl⟩
  | notBytes error | raised error => cases works

theorem chunk?_of_fails {result : IterResult} (fails : result.fails = true)
    : result.chunk? = none := by
  cases result with
  | stop | chunk => cases fails
  | notBytes | raised => rfl

end IterResult

namespace PyIterator

/-- What a step of the iterator gives. -/
def gives (iter : PyIterator) (pos : Nat) : IterResult := (iter pos).result

/-- The chunks of the first steps. -/
def chunks (iter : PyIterator) (count : Nat) : List Bytes :=
  (List.range count).filterMap fun pos => (iter.gives pos).chunk?

/-- The iterator did not stop in its first steps. -/
def Runs (iter : PyIterator) (count : Nat) : Prop := ∀ pos < count, iter.gives pos ≠ .stop

/-- The iterator has begun and not stopped, and from here on every step fails. -/
def FailsForEver (iter : PyIterator) : Prop :=
  ∃ count, 0 < count ∧ iter.Runs count ∧ ∀ pos ≥ count, (iter.gives pos).fails = true

/-- The first step that is exhausted or raises. -/
structure EndsAt (iter : PyIterator) (last : Nat) : Prop where
  here : (iter.gives last).ends = true
  first : ∀ pos < last, (iter.gives pos).ends = false

/-- From a step on the iterator fails some times, then it stops, and it does not fail for
ever after.
-/
def Settles (iter : PyIterator) (start : Nat) : Prop :=
  ∃ stop ≥ start,
    (∀ pos ≥ start, pos < stop → (iter.gives pos).fails = true)
    ∧ iter.gives stop = .stop
    ∧ ∃ later > stop, (iter.gives later).fails = false

variable {iter : PyIterator}

theorem chunks_succ (iter : PyIterator) (count : Nat)
    : iter.chunks (count + 1) = iter.chunks count ++ (iter.gives count).chunk?.toList := by
  rw [chunks, List.range_succ, List.filterMap_append, chunks]
  cases found : (iter.gives count).chunk? <;> simp [found]

theorem Runs.succ {count : Nat} (runs : iter.Runs count) (going : iter.gives count ≠ .stop)
    : iter.Runs (count + 1) := by
  intro pos before
  rcases Nat.lt_succ_iff_lt_or_eq.mp before with earlier | rfl
  · exact runs pos earlier
  · exact going

end PyIterator

-----------------------------------------------------------------------------------------
-- What `BytesIter` gives
-----------------------------------------------------------------------------------------

namespace BytesIter

/-- The chunks some calls of `next` give, up to the first that gives `None`. -/
def given : Nat → BytesIter → List Bytes
  | 0, _ => []
  | count + 1, self =>
      match self.next with
      | (.ok none, _) => []
      | (.ok (some chunk), after) => chunk :: after.given count
      | (.error _, after) => after.given count

/-- Every chunk the iterator yields before it stops is given, in order, and nothing else. -/
structure GivesAll (bytesIter : BytesIter) (iter : PyIterator) : Prop where
  only : ∀ count, ∃ steps, iter.Runs steps ∧ bytesIter.given count <+: iter.chunks steps
  all : ∀ steps, iter.Runs steps → ∃ count, iter.chunks steps <+: bytesIter.given count

variable {iter : PyIterator} {held : Option Bytes} {pos : Nat}

/-- A step that fails changes nothing but the position. -/
theorem next_fails (held : Option Bytes) (fails : (iter.gives pos).fails = true)
    : ∃ error, (BytesIter.mk held iter pos).next = (.error error, ⟨held, iter, pos + 1⟩) := by
  unfold PyIterator.gives at fails
  unfold next nextBodyChunk
  cases step : (iter pos).result with
  | stop | chunk => rw [step] at fails; cases fails
  | notBytes error | raised error => exact ⟨error, rfl⟩

/-- A step that does not fail gives the chunk that was held. -/
theorem next_works (works : (iter.gives pos).fails = false)
    : (BytesIter.mk held iter pos).next
      = (.ok held, ⟨(iter.gives pos).chunk?, iter, pos + 1⟩) := by
  unfold PyIterator.gives at works ⊢
  unfold next nextBodyChunk
  cases step : (iter pos).result with
  | stop | chunk => rfl
  | notBytes | raised => rw [step] at works; cases works

theorem given_fails (count : Nat) (fails : (iter.gives pos).fails = true)
    : (BytesIter.mk held iter pos).given (count + 1)
      = (BytesIter.mk held iter (pos + 1)).given count := by
  obtain ⟨error, failed⟩ := next_fails held fails
  rw [given]
  simp only [failed]

theorem given_works {chunk : Bytes} (count : Nat) (works : (iter.gives pos).fails = false)
    : (BytesIter.mk (some chunk) iter pos).given (count + 1)
      = chunk :: (BytesIter.mk (iter.gives pos).chunk? iter (pos + 1)).given count := by
  rw [given]
  simp only [next_works works]

/-- Once nothing is held nothing is given, by induction on the calls. -/
theorem given_none (count : Nat) : (BytesIter.mk none iter pos).given count = [] := by
  induction count generalizing pos with
  | zero => rfl
  | succ count ih =>
      cases step : (iter.gives pos).fails with
      | true => rw [given_fails count step, ih]
      | false =>
          rw [given]
          simp only [next_works step]

/-- A new one holds the first chunk. -/
theorem new_ok {bytesIter : BytesIter} (started : BytesIter.new iter = .ok bytesIter)
    : bytesIter = ⟨(iter.gives 0).chunk?, iter, 1⟩ ∧ (iter.gives 0).fails = false := by
  unfold new nextBodyChunk at started
  unfold PyIterator.gives
  cases step : (iter 0).result with
  | stop =>
      rw [step] at started
      exact ⟨(Except.ok.inj started).symm, rfl⟩
  | chunk bytes =>
      rw [step] at started
      exact ⟨(Except.ok.inj started).symm, rfl⟩
  | notBytes | raised => rw [step] at started; cases started

theorem new_works (works : (iter.gives 0).fails = false)
    : BytesIter.new iter = .ok ⟨(iter.gives 0).chunk?, iter, 1⟩ := by
  unfold PyIterator.gives at works ⊢
  unfold new nextBodyChunk
  cases step : (iter 0).result with
  | stop | chunk => rfl
  | notBytes | raised => rw [step] at works; cases works

/-- The chunks given so far and the one that is held are those of the steps taken. -/
structure Follows (iter : PyIterator) (pos : Nat) (front : List Bytes) (chunk : Bytes)
    : Prop where
  runs : iter.Runs pos
  chunks : iter.chunks pos = front ++ [chunk]

namespace Follows

variable {front : List Bytes} {chunk : Bytes}

/-- After a step that fails the same chunk is held. -/
theorem fails (follows : Follows iter pos front chunk) (fails : (iter.gives pos).fails = true)
    : Follows iter (pos + 1) front chunk := by
  refine ⟨follows.runs.succ ?_, ?_⟩
  · intro stopped
    rw [stopped] at fails
    cases fails
  · rw [iter.chunks_succ, follows.chunks, IterResult.chunk?_of_fails fails]
    exact List.append_nil _

/-- After a step with a chunk the old one is given and the new one is held. -/
theorem yields {bytes : Bytes} (follows : Follows iter pos front chunk)
    (yields : iter.gives pos = .chunk bytes)
    : Follows iter (pos + 1) (front ++ [chunk]) bytes := by
  refine ⟨follows.runs.succ ?_, ?_⟩
  · rw [yields]
    nofun
  · rw [iter.chunks_succ, follows.chunks, yields]
    rfl

/-- No other chunks are given. Witness: induction on the calls. -/
theorem only (follows : Follows iter pos front chunk) (count : Nat)
    : ∃ steps,
        iter.Runs steps
        ∧ front ++ (BytesIter.mk (some chunk) iter pos).given count <+: iter.chunks steps := by
  induction count generalizing pos front chunk with
  | zero =>
      refine ⟨pos, follows.runs, ?_⟩
      rw [follows.chunks, given, List.append_nil]
      exact List.prefix_append front [chunk]
  | succ count ih =>
      cases step : (iter.gives pos).fails with
      | true =>
          rw [given_fails count step]
          exact ih (follows.fails step)
      | false =>
          rw [given_works count step]
          by_cases stopped : iter.gives pos = .stop
          · have last
                : front ++ chunk :: (BytesIter.mk (iter.gives pos).chunk? iter (pos + 1)).given count
                  = iter.chunks pos := by
              rw [stopped, IterResult.chunk?, given_none, follows.chunks]
            exact ⟨pos, follows.runs, last ▸ List.prefix_refl _⟩
          · obtain ⟨bytes, yields⟩ := IterResult.eq_chunk stopped step
            obtain ⟨steps, runs, given⟩ := ih (follows.yields yields)
            refine ⟨steps, runs, ?_⟩
            rw [yields, IterResult.chunk?, List.append_cons]
            exact given

/-- The chunk that is held is given when a later step does not fail. Witness: induction on
the steps before that one.
-/
theorem gets (distance : Nat) (follows : Follows iter pos front chunk)
    (works : (iter.gives (pos + distance)).fails = false)
    : ∃ count, [chunk] <+: (BytesIter.mk (some chunk) iter pos).given count := by
  induction distance generalizing pos with
  | zero =>
      have here : (iter.gives pos).fails = false := works
      refine ⟨1, ?_⟩
      rw [given_works 0 here]
      exact List.prefix_append [chunk] _
  | succ distance ih =>
      cases step : (iter.gives pos).fails with
      | true =>
          have later : (iter.gives (pos + 1 + distance)).fails = false := by
            rwa [Nat.add_assoc, Nat.add_comm 1]
          obtain ⟨count, given⟩ := ih (follows.fails step) later
          exact ⟨count + 1, by rwa [given_fails count step]⟩
      | false =>
          refine ⟨1, ?_⟩
          rw [given_works 0 step]
          exact List.prefix_append [chunk] _

/-- All chunks are given if no step is the last that does not fail. Witness: induction on
the steps to go.
-/
theorem all (distance : Nat) (follows : Follows iter pos front chunk)
    (runs : iter.Runs (pos + distance))
    (later : ∃ works ≥ pos + distance, (iter.gives works).fails = false)
    : ∃ count,
        iter.chunks (pos + distance)
          <+: front ++ (BytesIter.mk (some chunk) iter pos).given count := by
  induction distance generalizing pos front chunk with
  | zero =>
      obtain ⟨works, past, step⟩ := later
      obtain ⟨distance, rfl⟩ := Nat.exists_eq_add_of_le past
      obtain ⟨count, given⟩ := follows.gets distance step
      refine ⟨count, ?_⟩
      rw [Nat.add_zero, follows.chunks]
      exact (List.prefix_append_right_inj front).mpr given
  | succ distance ih =>
      have shift : pos + (distance + 1) = pos + 1 + distance := by omega
      rw [shift] at runs later ⊢
      cases step : (iter.gives pos).fails with
      | true =>
          obtain ⟨count, given⟩ := ih (follows.fails step) runs later
          exact ⟨count + 1, by rwa [given_fails count step]⟩
      | false =>
          have going : iter.gives pos ≠ .stop := runs pos (by omega)
          obtain ⟨bytes, yields⟩ := IterResult.eq_chunk going step
          obtain ⟨count, given⟩ := ih (follows.yields yields) runs later
          refine ⟨count + 1, ?_⟩
          rw [given_works count step, yields, IterResult.chunk?, List.append_cons]
          exact given

/-- The last chunk is never given if every later step fails. Witness: induction on the
calls.
-/
theorem kept {steps : Nat} (follows : Follows iter pos front chunk)
    (runs : iter.Runs steps) (fails : ∀ later ≥ steps, (iter.gives later).fails = true)
    (count : Nat)
    : (front ++ (BytesIter.mk (some chunk) iter pos).given count).length
      < (iter.chunks (max pos steps)).length := by
  induction count generalizing pos front chunk with
  | zero =>
      have more : iter.chunks pos <+: iter.chunks (max pos steps) := by
        obtain ⟨more, bound⟩ := Nat.exists_eq_add_of_le (Nat.le_max_left pos steps)
        rw [bound, PyIterator.chunks, PyIterator.chunks, List.range_add,
          List.filterMap_append]
        exact List.prefix_append _ _
      have longer := more.length_le
      rw [follows.chunks] at longer
      simp only [given, List.append_nil, List.length_append, List.length_singleton] at longer ⊢
      omega
  | succ count ih =>
      cases step : (iter.gives pos).fails with
      | true =>
          have same : iter.chunks (max (pos + 1) steps) = iter.chunks (max pos steps) := by
            rcases Nat.lt_or_ge pos steps with before | past
            · rw [Nat.max_eq_right before, Nat.max_eq_right (Nat.le_of_lt before)]
            · rw [Nat.max_eq_left past, Nat.max_eq_left (Nat.le_succ_of_le past),
                iter.chunks_succ, IterResult.chunk?_of_fails step]
              exact List.append_nil _
          rw [given_fails count step, ← same]
          exact ih (follows.fails step)
      | false =>
          have before : pos < steps := by
            by_contra past
            rw [fails pos (by omega)] at step
            cases step
          obtain ⟨bytes, yields⟩ := IterResult.eq_chunk (runs pos before) step
          have shorter := ih (follows.yields yields)
          rw [Nat.max_eq_right before] at shorter
          rw [given_works count step, yields, IterResult.chunk?, List.append_cons,
            Nat.max_eq_right (Nat.le_of_lt before)]
          exact shorter

end Follows

/-- All chunks are given exactly if the iterator does not fail for ever. -/
theorem givesAll_iff {bytesIter : BytesIter} (started : BytesIter.new iter = .ok bytesIter)
    : bytesIter.GivesAll iter ↔ ¬ iter.FailsForEver := by
  obtain ⟨rfl, works⟩ := new_ok started
  by_cases stopped : iter.gives 0 = .stop
  · have none_ : ∀ steps, iter.Runs steps → steps = 0 := by
      intro steps runs
      by_contra positive
      exact runs 0 (Nat.pos_of_ne_zero positive) stopped
    rw [stopped, IterResult.chunk?]
    constructor
    · rintro - ⟨steps, positive, runs, -⟩
      exact absurd (none_ steps runs) (Nat.ne_of_gt positive)
    · intro
      refine ⟨?_, ?_⟩
      · intro count
        refine ⟨0, by nofun, ?_⟩
        rw [given_none]
        exact List.nil_prefix
      · intro steps runs
        obtain rfl := none_ steps runs
        exact ⟨0, List.prefix_refl _⟩
  · obtain ⟨chunk, yields⟩ := IterResult.eq_chunk stopped works
    have runs : iter.Runs 1 := PyIterator.Runs.succ (by nofun) stopped
    have follows : Follows iter 1 [] chunk := by
      refine ⟨runs, ?_⟩
      rw [iter.chunks_succ, yields]
      rfl
    rw [yields, IterResult.chunk?]
    constructor
    · rintro gives ⟨steps, positive, runs, fails⟩
      obtain ⟨count, given⟩ := gives.all steps runs
      have shorter := follows.kept runs fails count
      rw [Nat.max_eq_right positive, List.nil_append] at shorter
      exact Nat.lt_irrefl _ (Nat.lt_of_le_of_lt given.length_le shorter)
    · intro lasting
      refine ⟨follows.only, ?_⟩
      intro steps runs
      rcases Nat.eq_zero_or_pos steps with rfl | positive
      · exact ⟨0, List.prefix_refl _⟩
      · have later : ∃ works ≥ steps, (iter.gives works).fails = false := by
          by_contra none_
          refine lasting ⟨steps, positive, runs, fun pos past => ?_⟩
          by_contra works
          exact none_ ⟨pos, past, Bool.not_eq_true _ ▸ works⟩
        obtain ⟨distance, rfl⟩ := Nat.exists_eq_add_of_le positive
        exact follows.all distance runs later

end BytesIter

-----------------------------------------------------------------------------------------
-- The streaming loop
-----------------------------------------------------------------------------------------

namespace BodySender

variable {iter : PyIterator} {held : Option Bytes} {pos : Nat} {sent : List Bytes}

/-- The loop has one turn more. -/
theorem streams_iff {sender : BodySender} (open_ : sender.connected)
    : sender.Streams sent
      ↔ ∃ later, sender.turn.2.Streams later ∧ sent = sender.turn.1.toList ++ later := by
  constructor
  · intro streams
    cases streams with
    | dropped => cases open_
    | turn _ later => exact ⟨_, later, rfl⟩
  · rintro ⟨later, streams, rfl⟩
    exact .turn open_ streams

/-- A turn whose step fails sends nothing. -/
theorem turn_fails (held : Option Bytes) (fails : (iter.gives pos).fails = true)
    : (pyIterator ⟨held, iter, pos⟩).turn = (none, pyIterator ⟨held, iter, pos + 1⟩) := by
  obtain ⟨error, failed⟩ := BytesIter.next_fails held fails
  simp only [turn, failed]

/-- With nothing held a turn whose step does not fail is the last one. -/
theorem turn_none (works : (iter.gives pos).fails = false)
    : (pyIterator ⟨none, iter, pos⟩).turn = (none, dropped) := by
  simp only [turn, BytesIter.next_works works]

/-- Otherwise it sends the chunk that is held. -/
theorem turn_some (chunk : Bytes) (works : (iter.gives pos).fails = false)
    : (pyIterator ⟨some chunk, iter, pos⟩).turn
      = (some chunk, pyIterator ⟨(iter.gives pos).chunk?, iter, pos + 1⟩) := by
  simp only [turn, BytesIter.next_works works]

theorem streams_fails (fails : (iter.gives pos).fails = true)
    : (pyIterator ⟨held, iter, pos⟩).Streams sent
      ↔ (pyIterator ⟨held, iter, pos + 1⟩).Streams sent := by
  rw [streams_iff rfl, turn_fails held fails]
  constructor
  · rintro ⟨later, streams, rfl⟩
    exact streams
  · intro streams
    exact ⟨sent, streams, rfl⟩

theorem streams_works {chunk : Bytes} (works : (iter.gives pos).fails = false)
    : (pyIterator ⟨some chunk, iter, pos⟩).Streams sent
      ↔ ∃ later,
          (pyIterator ⟨(iter.gives pos).chunk?, iter, pos + 1⟩).Streams later
          ∧ sent = chunk :: later := by
  rw [streams_iff rfl, turn_some chunk works]
  rfl

/-- A loop that has nothing held and ends, by induction on its turns. -/
theorem Streams.of_none (streams : (pyIterator ⟨none, iter, pos⟩).Streams sent)
    : sent = [] ∧ ∃ works ≥ pos, (iter.gives works).fails = false := by
  generalize same : pyIterator ⟨none, iter, pos⟩ = sender at streams
  induction streams generalizing pos with
  | dropped => cases same
  | @turn sender later open_ streams ih =>
      subst same
      cases step : (iter.gives pos).fails with
      | true =>
          rw [turn_fails none step] at ih ⊢
          obtain ⟨rfl, works, past, here⟩ := ih rfl
          exact ⟨rfl, works, Nat.le_of_succ_le past, here⟩
      | false =>
          rw [turn_none step] at streams ⊢
          cases streams with
          | dropped => exact ⟨rfl, pos, Nat.le_refl pos, step⟩
          | turn open_ => cases open_

/-- It ends at the next step that does not fail. Witness: induction on the steps before. -/
theorem streams_none (distance : Nat) (works : (iter.gives (pos + distance)).fails = false)
    : (pyIterator ⟨none, iter, pos⟩).Streams [] := by
  induction distance generalizing pos with
  | zero =>
      have here : (iter.gives pos).fails = false := works
      refine (streams_iff rfl).mpr ⟨[], ?_, ?_⟩
      · rw [turn_none here]
        exact .dropped
      · rw [turn_none here]
        rfl
  | succ distance ih =>
      cases step : (iter.gives pos).fails with
      | true =>
          have later : (iter.gives (pos + 1 + distance)).fails = false := by
            rwa [Nat.add_assoc, Nat.add_comm 1]
          exact (streams_fails step).mpr (ih later)
      | false =>
          refine (streams_iff rfl).mpr ⟨[], ?_, ?_⟩
          · rw [turn_none step]
            exact .dropped
          · rw [turn_none step]
            rfl

/-- A loop that holds a chunk sends it if it ends, by induction on its turns. -/
theorem Streams.of_some {chunk : Bytes}
    (streams : (pyIterator ⟨some chunk, iter, pos⟩).Streams sent)
    : sent ≠ [] ∧ (sent = [chunk] → iter.Settles pos) := by
  generalize same : pyIterator ⟨some chunk, iter, pos⟩ = sender at streams
  induction streams generalizing pos chunk with
  | dropped => cases same
  | @turn sender later open_ streams ih =>
      subst same
      cases step : (iter.gives pos).fails with
      | true =>
          rw [turn_fails (some chunk) step] at ih ⊢
          obtain ⟨some_, settles⟩ := ih rfl
          refine ⟨some_, ?_⟩
          intro only
          obtain ⟨stop, past, fails, ends⟩ := settles only
          refine ⟨stop, Nat.le_of_succ_le past, ?_, ends⟩
          intro other start before
          rcases Nat.eq_or_lt_of_le start with rfl | after
          · exact step
          · exact fails other after before
      | false =>
          rw [turn_some chunk step] at ih streams ⊢
          refine ⟨List.cons_ne_nil _ _, ?_⟩
          intro only
          have rest : later = [] := (List.cons.inj only).2
          by_cases stopped : iter.gives pos = .stop
          · rw [stopped] at streams
            obtain ⟨-, works, past, here⟩ := streams.of_none
            exact ⟨pos, Nat.le_refl pos, fun _ start before => absurd before (by omega),
              stopped, works, past, here⟩
          · obtain ⟨bytes, yields⟩ := IterResult.eq_chunk stopped step
            have same
                : pyIterator ⟨some bytes, iter, pos + 1⟩
                  = pyIterator ⟨(iter.gives pos).chunk?, iter, pos + 1⟩ := by
              rw [yields]
              rfl
            exact absurd rest (ih same).1

/-- It ends with that chunk if the iterator settles. Witness: induction on the steps before
the stop.
-/
theorem streams_some (chunk : Bytes) (settles : iter.Settles pos)
    : (pyIterator ⟨some chunk, iter, pos⟩).Streams [chunk] := by
  obtain ⟨stop, past, fails, stopped, works, later, here⟩ := settles
  obtain ⟨distance, rfl⟩ := Nat.exists_eq_add_of_le past
  clear past
  induction distance generalizing pos with
  | zero =>
      obtain ⟨more, rfl⟩ := Nat.exists_eq_add_of_le later
      have step : iter.gives pos = .stop := stopped
      have ends : (pyIterator ⟨none, iter, pos + 1⟩).Streams [] := streams_none more here
      refine (streams_works ?_).mpr ⟨[], ?_, rfl⟩
      · rw [step]
        rfl
      · rw [step]
        exact ends
  | succ distance ih =>
      have shift : pos + (distance + 1) = pos + 1 + distance := by omega
      rw [shift] at fails stopped later
      refine (streams_fails (fails pos (Nat.le_refl pos) (by omega))).mpr ?_
      exact ih (fun other start => fails other (Nat.le_of_succ_le start)) stopped later

/-- It does not end if every step fails, by induction on its turns. -/
theorem not_streams (fails : ∀ later ≥ pos, (iter.gives later).fails = true)
    : ¬ (pyIterator ⟨held, iter, pos⟩).Streams sent := by
  intro streams
  generalize same : pyIterator ⟨held, iter, pos⟩ = sender at streams
  induction streams generalizing pos with
  | dropped => cases same
  | turn open_ _ ih =>
      subst same
      have turned := turn_fails held (fails pos (Nat.le_refl pos))
      apply ih (fun later past => fails later (Nat.le_of_succ_le past))
      exact (congrArg Prod.snd turned).symm

/-- Up to the end of the iterator the loop sends its chunks and holds the last of them.
Witness: induction on the steps to go.
-/
theorem streams_until (distance : Nat) {front : List Bytes} {chunk : Bytes}
    (follows : BytesIter.Follows iter pos front chunk)
    (going : ∀ other ≥ pos, other < pos + distance → (iter.gives other).ends = false)
    : ∃ chunks last,
        iter.chunks (pos + distance) = front ++ chunks
        ∧ ((pyIterator ⟨some chunk, iter, pos⟩).Streams chunks
            ↔ (pyIterator ⟨some last, iter, pos + distance⟩).Streams [last]) := by
  induction distance generalizing pos front chunk with
  | zero => exact ⟨[chunk], chunk, follows.chunks, Iff.rfl⟩
  | succ distance ih =>
      have shift : pos + (distance + 1) = pos + 1 + distance := by omega
      rw [shift] at going ⊢
      have here := going pos (Nat.le_refl pos) (by omega)
      have later : ∀ other ≥ pos + 1, other < pos + 1 + distance →
          (iter.gives other).ends = false :=
        fun other start => going other (Nat.le_of_succ_le start)
      cases step : (iter.gives pos).fails with
      | true =>
          obtain ⟨chunks, last, same, streams⟩ := ih (follows.fails step) later
          exact ⟨chunks, last, same, (streams_fails step).trans streams⟩
      | false =>
          have open_ : iter.gives pos ≠ .stop := by
            intro stopped
            rw [stopped] at here
            cases here
          obtain ⟨bytes, yields⟩ := IterResult.eq_chunk open_ step
          obtain ⟨chunks, last, same, streams⟩ := ih (follows.yields yields) later
          refine ⟨chunk :: chunks, last, ?_, ?_⟩
          · rw [same, List.append_assoc]
            rfl
          · rw [streams_works step, yields, ← streams]
            constructor
            · rintro ⟨rest, streams, sent⟩
              exact (List.cons.inj sent).2 ▸ streams
            · intro streams
              exact ⟨chunks, streams, rfl⟩

end BodySender

/-- The streaming loop ends with exactly the chunks before the iterator was exhausted or
raised, if and only if the iterator settles after that.
-/
theorem body_streaming_ends_iff {iter : PyIterator} {bytesIter : BytesIter} {last : Nat}
    (started : BytesIter.new iter = .ok bytesIter) (ends : iter.EndsAt last)
    : (BodySender.pyIterator bytesIter).Streams (iter.chunks last) ↔ iter.Settles last := by
  obtain ⟨rfl, works⟩ := BytesIter.new_ok started
  cases last with
  | zero =>
      have stopped : iter.gives 0 = .stop := by
        have here := ends.here
        cases step : iter.gives 0 with
        | stop => rfl
        | chunk | notBytes => rw [step] at here; cases here
        | raised => rw [step] at works; cases works
      rw [stopped]
      constructor
      · intro streams
        obtain ⟨-, later, past, here⟩ := streams.of_none
        exact ⟨0, Nat.le_refl 0, fun _ _ before => absurd before (Nat.not_lt_zero _),
          stopped, later, past, here⟩
      · rintro ⟨stop, -, fails, -, later, past, here⟩
        have positive : 1 ≤ later := Nat.lt_of_le_of_lt (Nat.zero_le stop) past
        obtain ⟨distance, rfl⟩ := Nat.exists_eq_add_of_le positive
        exact BodySender.streams_none distance here
  | succ last =>
      have here := ends.first 0 (Nat.succ_pos last)
      have open_ : iter.gives 0 ≠ .stop := by
        intro stopped
        rw [stopped] at here
        cases here
      obtain ⟨chunk, yields⟩ := IterResult.eq_chunk open_ works
      have follows : BytesIter.Follows iter 1 [] chunk := by
        refine ⟨PyIterator.Runs.succ (by nofun) open_, ?_⟩
        rw [iter.chunks_succ, yields]
        rfl
      obtain ⟨chunks, held, same, streams⟩ :=
        BodySender.streams_until last follows
          fun other start before => ends.first other (by omega)
      rw [Nat.add_comm 1 last] at same streams
      rw [same, yields]
      refine streams.trans ⟨?_, ?_⟩
      · intro sends
        exact sends.of_some.2 rfl
      · intro settles
        exact BodySender.streams_some held settles

/-- One chunk, and then an exception at every step. -/
def raisesOn : PyIterator
  | 0 => ⟨[], .chunk [104, 105]⟩
  | _ + 1 => ⟨[], .raised ⟨"", "again"⟩⟩

/-- One chunk, one exception, and then the end, as a generator does. -/
def raisesOnce : PyIterator
  | 0 => ⟨[], .chunk [104, 105]⟩
  | 1 => ⟨[], .raised ⟨"", "once"⟩⟩
  | _ + 2 => ⟨[], .stop⟩

/-- After a single exception the loop ends with the chunk before it. -/
theorem body_streaming_ends_once
    : (BodySender.pyIterator ⟨some [104, 105], raisesOnce, 1⟩).Streams [[104, 105]] := by
  have ends : raisesOnce.EndsAt 1 := by
    refine ⟨rfl, ?_⟩
    intro pos before
    obtain rfl : pos = 0 := by omega
    rfl
  have settles : raisesOnce.Settles 1 := by
    refine ⟨2, by decide, ?_, rfl, 3, by decide, rfl⟩
    intro pos start before
    obtain rfl : pos = 1 := by omega
    rfl
  exact (body_streaming_ends_iff rfl ends).mpr settles

/-- When every step raises the loop never ends. -/
theorem body_streaming_never_ends
    : BytesIter.new raisesOn = .ok ⟨some [104, 105], raisesOn, 1⟩
      ∧ raisesOn.EndsAt 1
      ∧ ∀ sent, ¬ (BodySender.pyIterator ⟨some [104, 105], raisesOn, 1⟩).Streams sent := by
  refine ⟨rfl, ⟨rfl, ?_⟩, ?_⟩
  · intro pos before
    obtain rfl : pos = 0 := by omega
    rfl
  · intro sent
    apply BodySender.not_streams
    intro later past
    obtain ⟨more, rfl⟩ := Nat.exists_eq_add_of_le past
    rw [Nat.add_comm]
    rfl

-----------------------------------------------------------------------------------------
-- When `start_response` is called
-----------------------------------------------------------------------------------------

/-- The header a call puts, if it succeeds. -/
def StartCall.header? (parser : StatusParser) (call : StartCall) : Option HttpResponseHeader :=
  (startResponse parser call).toOption

/-- The header of the latest call that succeeded. -/
def latestHeader (parser : StatusParser) (calls : List StartCall) : Option HttpResponseHeader :=
  (calls.filterMap (·.header? parser)).getLast?

/-- The cell holds the header of the latest call, by induction on the calls. -/
theorem ReqLocal.start_header (parser : StatusParser) (self : ReqLocal)
    (calls : List StartCall)
    : (self.start parser calls).responseHeader
      = (latestHeader parser calls).or self.responseHeader := by
  induction calls generalizing self with
  | nil => rfl
  | cons call rest ih =>
      have first : self.start parser (call :: rest)
          = (self.start parser [call]).start parser rest := rfl
      rw [first, ih]
      cases started : startResponse parser call with
      | error e =>
          have none_ : call.header? parser = none := by
            rw [StartCall.header?, started]
            rfl
          have same : (self.start parser [call]).responseHeader = self.responseHeader := by
            simp only [ReqLocal.start, List.foldl_cons, List.foldl_nil, started]
          simp only [same, latestHeader, List.filterMap_cons, none_]
      | ok header =>
          have some_ : call.header? parser = some header := by
            rw [StartCall.header?, started]
            rfl
          have put : (self.start parser [call]).responseHeader = some header := by
            simp only [ReqLocal.start, List.foldl_cons, List.foldl_nil, started]
            rfl
          simp only [put, latestHeader, List.filterMap_cons, some_, List.getLast?_cons]
          cases (rest.filterMap (·.header? parser)).getLast? with
          | none => rfl
          | some last => rfl

/-- What WSGI asks for: the header of the latest call before the first chunk is returned, and
an iterator that gives all chunks.
-/
def Prompt (parser : StatusParser) (wsgiCallable : WsgiCallable) (server : String × UInt16)
    (req : HttpRequest) (calls : List StartCall) (iter : PyIterator)
    : Prop :=
  ∃ header bytesIter,
    (execute parser wsgiCallable server (ReqLocal.init.setContext req.context) req).1
      = .ok (header, bytesIter)
    ∧ latestHeader parser (calls ++ (iter 0).starts) = some header
    ∧ bytesIter.GivesAll iter

section StartResponse

variable {parser : StatusParser} {wsgiCallable : WsgiCallable} {server : String × UInt16}
  {req : HttpRequest} {calls : List StartCall} {iter : PyIterator}

/-- `execute` of an application that returns an iterator whose first step does not fail: the
header is the one put before the iterator was returned.
-/
theorem execute_started
    (called : wsgiCallable (buildEnviron server req).1 = ⟨calls, .ok iter⟩)
    (works : (iter.gives 0).fails = false)
    : (execute parser wsgiCallable server (ReqLocal.init.setContext req.context) req).1
      = match latestHeader parser calls with
        | none => .error ⟨"", "start_response not called"⟩
        | some header => .ok (header, ⟨(iter.gives 0).chunk?, iter, 1⟩) := by
  have put := (ReqLocal.init.setContext req.context).start_header parser calls
  unfold execute
  simp only [called, ReqLocal.takeResponseHeader, put, BytesIter.new_works works]
  cases latestHeader parser calls with
  | none => rfl
  | some header => rfl

/-- For an application that calls `start_response` successfully before its first chunk, and
does not raise before that, `execute` does what WSGI asks for if and only if the latest of
these calls put the same header as the latest one before the iterator was returned, and the
iterator does not fail for ever.
-/
theorem start_response_timing_iff
    (called : wsgiCallable (buildEnviron server req).1 = ⟨calls, .ok iter⟩)
    (started : (latestHeader parser (calls ++ (iter 0).starts)).isSome)
    (works : (iter.gives 0).fails = false)
    : Prompt parser wsgiCallable server req calls iter
      ↔ latestHeader parser calls = latestHeader parser (calls ++ (iter 0).starts)
        ∧ ¬ iter.FailsForEver := by
  have returned
      : (execute parser wsgiCallable server (ReqLocal.init.setContext req.context) req).1
        = match latestHeader parser calls with
          | none => .error ⟨"", "start_response not called"⟩
          | some header => .ok (header, ⟨(iter.gives 0).chunk?, iter, 1⟩) :=
    execute_started called works
  obtain ⟨header, last⟩ := Option.isSome_iff_exists.mp started
  have new := BytesIter.new_works works
  unfold Prompt
  rw [returned, last]
  constructor
  · rintro ⟨header', bytesIter, ok, same, gives⟩
    obtain rfl := Option.some.inj same
    cases taken : latestHeader parser calls with
    | none => rw [taken] at ok; cases ok
    | some put =>
        rw [taken] at ok
        obtain ⟨rfl, rfl⟩ := Prod.mk.inj (Except.ok.inj ok)
        exact ⟨rfl, (BytesIter.givesAll_iff new).mp gives⟩
  · rintro ⟨taken, lasting⟩
    rw [taken]
    exact ⟨header, _, rfl, rfl, (BytesIter.givesAll_iff new).mpr lasting⟩

end StartResponse

/-- An application that starts the response before it returns its iterator. -/
theorem start_response_timing_first
    : Prompt .ok (yields [] [104, 105]) ("h", 80) rootRequest [⟨"200 OK", []⟩]
        (fun
          | 0 => { starts := [], result := .chunk [104, 105] }
          | _ + 1 => { starts := [], result := .stop }) := by
  have header : latestHeader .ok [⟨"200 OK", []⟩] = some ⟨200, "OK", []⟩ := by decide +kernel
  refine (start_response_timing_iff rfl ?_ rfl).mpr ⟨rfl, ?_⟩
  · rw [List.append_nil, header]
    rfl
  · rintro ⟨count, -, -, fails⟩
    have last := fails (count + 1) (Nat.le_succ count)
    cases last

/-- A generator function: what it does before its first chunk is done in the first step. -/
def startsInside : PyIterator
  | 0 => ⟨[⟨"200 OK", []⟩], .chunk [104, 105]⟩
  | _ + 1 => ⟨[], .stop⟩

/-- The response it starts is refused. -/
theorem start_response_too_late
    : latestHeader .ok (startsInside 0).starts = some ⟨200, "OK", []⟩
      ∧ (execute .ok (fun _ => ⟨[], .ok startsInside⟩) ("h", 80)
            (ReqLocal.init.setContext rootRequest.context) rootRequest).1
          = .error ⟨"", "start_response not called"⟩
      ∧ ¬ Prompt .ok (fun _ => ⟨[], .ok startsInside⟩) ("h", 80) rootRequest [] startsInside := by
  have refused
      : (execute .ok (fun _ => ⟨[], .ok startsInside⟩) ("h", 80)
            (ReqLocal.init.setContext rootRequest.context) rootRequest).1
          = .error ⟨"", "start_response not called"⟩ := rfl
  refine ⟨by decide +kernel, refused, ?_⟩
  rintro ⟨header, bytesIter, returned, -⟩
  rw [refused] at returned
  cases returned

end Casket
