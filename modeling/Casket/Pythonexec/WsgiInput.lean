import Casket.Http.Types
import Casket.Lib.Lines

/-! `wsgi.input`: the body of a request behind one cursor. The iterators over it hold nothing
but the input, so they all move the same cursor.
-/

namespace Casket

open Lib

/-- `&buf[start..stop]`. -/
def slice (buf : Bytes) (start stop : Nat) : Except Panic Bytes :=
  if start ≤ stop ∧ stop ≤ buf.length then
    .ok ((buf.drop start).take (stop - start))
  else
    .error .sliceOutOfRange

structure WsgiInput where
  body : Bytes
  pos : Nat
  deriving DecidableEq, Repr

namespace WsgiInput

def new (body : Bytes) : WsgiInput := ⟨body, 0⟩

/-- A size is clamped to the bytes that remain. -/
def read (self : WsgiInput) (size : Option Nat) : Except Panic (Bytes × WsgiInput) :=
  if self.body.length < self.pos then
    .error .subtractOverflow
  else
    let bytesRemaining := self.body.length - self.pos
    let size := size.getD bytesRemaining
    let size := if bytesRemaining < size then bytesRemaining else size
    match slice self.body self.pos (self.pos + size) with
    | .error panic => .error panic
    | .ok data => .ok (data, { self with pos := self.pos + size })

/-- Both the line and the cursor stop in front of the newline. -/
def readline (self : WsgiInput) (_size : Option Nat) : Except Panic (Bytes × WsgiInput) :=
  match slice self.body self.pos self.body.length with
  | .error panic => .error panic
  | .ok remaining =>
      match remaining.findIdx? (· == 10) with
      | none => .ok (remaining, { self with pos := self.body.length })
      | some count =>
          match slice self.body self.pos (self.pos + count) with
          | .error panic => .error panic
          | .ok data => .ok (data, { self with pos := self.pos + count })

/-- `for n in 1..`, from `n` on and for at most `fuel` turns. The list it grows has all the
memory it needs.
-/
def readlinesLoop (size : Option Nat)
    : Nat → Nat → WsgiInput → List Bytes → Option (Except Panic (List Bytes × WsgiInput))
  | 0, _, _, _ => none
  | fuel + 1, n, self, list =>
      match self.readline none with
      | .error panic => some (.error panic)
      | .ok (line, self) =>
          if size = some n then
            some (.ok (list ++ [line], self))
          else
            readlinesLoop size fuel (n + 1) self (list ++ [line])

def readlines (fuel : Nat) (self : WsgiInput) (size : Option Nat)
    : Option (Except Panic (List Bytes × WsgiInput)) :=
  readlinesLoop size fuel 1 self []

/-- `WsgiInputIter::__next__`, on the input the iterator shares. -/
def iterNext (self : WsgiInput) : Except Panic (Option UInt8 × WsgiInput) :=
  if self.pos = self.body.length then
    .ok (none, self)
  else
    match self.body[self.pos]? with
    | none => .error .sliceOutOfRange
    | some byte => .ok (some byte, { self with pos := self.pos + 1 })

end WsgiInput

-----------------------------------------------------------------------------------------
-- Calls
-----------------------------------------------------------------------------------------

/-- A call an application makes on the input, or on one of the iterators over it. -/
inductive InputCall where
  | read (size : Option Nat)
  | readline (size : Option Nat)
  | next (iter : Nat)
  deriving DecidableEq, Repr

/-- What python is given: a `bytes`, an `int`, or the end of an iteration. -/
inductive InputResult where
  | bytes (data : Bytes)
  | int (byte : UInt8)
  | stopIteration
  deriving DecidableEq, Repr

/-- The bytes of the body in a result. -/
def InputResult.piece : InputResult → Bytes
  | .bytes data => data
  | .int byte => [byte]
  | .stopIteration => []

namespace WsgiInput

def call (self : WsgiInput) : InputCall → Except Panic (InputResult × WsgiInput)
  | .read size => (self.read size).map fun (data, after) => (.bytes data, after)
  | .readline size => (self.readline size).map fun (line, after) => (.bytes line, after)
  | .next _ =>
      self.iterNext.map fun (byte, after) =>
        ((byte.map InputResult.int).getD .stopIteration, after)

/-- Some calls in a row, with their results. -/
def calls : WsgiInput → List InputCall → Except Panic (List InputResult × WsgiInput)
  | self, [] => .ok ([], self)
  | self, op :: rest =>
      match self.call op with
      | .error panic => .error panic
      | .ok (result, after) =>
          (after.calls rest).map fun (results, after) => (result :: results, after)

/-- The bytes behind the cursor. -/
def rest (self : WsgiInput) : Bytes := self.body.drop self.pos

/-- The cursor is in the body. -/
def Within (self : WsgiInput) : Prop := self.pos ≤ self.body.length

-----------------------------------------------------------------------------------------
-- What a call takes
-----------------------------------------------------------------------------------------

variable {self : WsgiInput}

theorem length_rest (self : WsgiInput) : self.rest.length = self.body.length - self.pos :=
  List.length_drop

/-- A part of the body that begins at the cursor. -/
theorem slice_rest {count : Nat} (within : self.Within) (inside : count ≤ self.rest.length)
    : slice self.body self.pos (self.pos + count) = .ok (self.rest.take count) := by
  have bound : self.pos + count ≤ self.body.length := by
    rw [length_rest] at inside
    unfold Within at within
    omega
  rw [slice, if_pos ⟨Nat.le_add_right _ _, bound⟩, Nat.add_sub_cancel_left, rest]

/-- The part that ends with the body. -/
theorem slice_all (within : self.Within)
    : slice self.body self.pos self.body.length = .ok self.rest := by
  have all := slice_rest within (Nat.le_refl _)
  rw [List.take_length, length_rest, Nat.add_sub_cancel' within] at all
  exact all

theorem read_within (within : self.Within) (size : Option Nat)
    : self.read size
      = .ok
          (self.rest.take (min (size.getD self.rest.length) self.rest.length),
            { self with pos := self.pos + min (size.getD self.rest.length) self.rest.length })
    := by
  have clamped
      : (if self.rest.length < size.getD self.rest.length then
          self.rest.length
        else
          size.getD self.rest.length)
        = min (size.getD self.rest.length) self.rest.length := by
    split
    · exact (Nat.min_eq_right (by omega)).symm
    · exact (Nat.min_eq_left (by omega)).symm
  rw [read, if_neg (by unfold Within at within; omega), ← length_rest]
  simp only [clamped, slice_rest within (Nat.min_le_right _ _)]

/-- A line ends in front of the first newline, or with the body. -/
theorem readline_within (within : self.Within) (size : Option Nat)
    : self.readline size
      = match self.rest.findIdx? (· == 10) with
        | none => .ok (self.rest, { self with pos := self.body.length })
        | some count => .ok (self.rest.take count, { self with pos := self.pos + count }) := by
  simp only [readline, slice_all within]
  cases found : self.rest.findIdx? (· == 10) with
  | none => rfl
  | some count =>
      have inside : count ≤ self.rest.length :=
        Nat.le_of_lt (List.findIdx?_eq_some_iff_getElem.mp found).1
      simp only [slice_rest within inside]

/-- At the end of the body an iterator stops; before it, it gives a byte. -/
theorem iterNext_within (within : self.Within)
    : self.iterNext
      = .ok
          (self.rest.head?,
            { self with pos := self.pos + (self.rest.take 1).length }) := by
  rw [iterNext]
  split
  · next ended =>
      have empty : self.rest = [] := by
        rw [rest, ended]
        exact List.drop_length
      rw [empty]
      rfl
  · next before =>
      have inside : self.pos < self.body.length := Nat.lt_of_le_of_ne within before
      have first : self.rest = self.body[self.pos] :: self.body.drop (self.pos + 1) :=
        List.drop_eq_getElem_cons inside
      rw [List.getElem?_eq_getElem inside, first]
      rfl

/-- A call takes a front part of what is behind the cursor, and moves past it. -/
structure Takes (before : WsgiInput) (result : InputResult) (after : WsgiInput) : Prop where
  body : after.body = before.body
  ahead : before.pos ≤ after.pos
  within : after.Within
  piece : result.piece = before.rest.take (after.pos - before.pos)

/-- To take `count` bytes. -/
theorem takes_count {result : InputResult} {count : Nat} (within : self.Within)
    (inside : count ≤ self.rest.length) (piece : result.piece = self.rest.take count)
    : self.Takes result { self with pos := self.pos + count } := by
  refine ⟨rfl, Nat.le_add_right _ _, ?_, ?_⟩
  · rw [length_rest] at inside
    unfold Within at within ⊢
    dsimp only
    omega
  · rw [piece, Nat.add_sub_cancel_left]

/-- Every call finds what it takes. -/
theorem call_takes (within : self.Within) (op : InputCall)
    : ∃ result after, self.call op = .ok (result, after) ∧ self.Takes result after := by
  cases op with
  | read size =>
      have clamped := Nat.min_le_right (size.getD self.rest.length) self.rest.length
      refine ⟨.bytes _, _, ?_, takes_count within clamped rfl⟩
      rw [call, read_within within size]
      rfl
  | readline size =>
      rw [call, readline_within within size]
      split
      · refine ⟨_, _, rfl, rfl, within, Nat.le_refl _, ?_⟩
        rw [← length_rest, List.take_length]
        rfl
      · next count found =>
          have inside : count ≤ self.rest.length :=
            Nat.le_of_lt (List.findIdx?_eq_some_iff_getElem.mp found).1
          exact ⟨_, _, rfl, takes_count within inside rfl⟩
  | next iter =>
      have inside : (self.rest.take 1).length ≤ self.rest.length := List.length_take_le' 1 _
      have piece
          : ((self.rest.head?.map InputResult.int).getD .stopIteration).piece
            = self.rest.take (self.rest.take 1).length := by
        cases self.rest with
        | nil => rfl
        | cons byte rest => rfl
      refine ⟨_, _, ?_, takes_count within inside piece⟩
      rw [call, iterNext_within within]
      rfl

/-- Calls one after the other take parts that follow each other. -/
theorem Takes.rest {result : InputResult} {after : WsgiInput} (takes : self.Takes result after)
    : self.rest = result.piece ++ after.rest := by
  have behind : after.rest = self.rest.drop (after.pos - self.pos) := by
    rw [WsgiInput.rest, WsgiInput.rest, List.drop_drop, takes.body,
      Nat.add_sub_cancel' takes.ahead]
  rw [takes.piece, behind, List.take_append_drop]

/-- Calls one after the other: the results in order are what was behind the cursor. Witness:
induction on the calls.
-/
theorem calls_take (ops : List InputCall) (within : self.Within)
    : ∃ results after,
        self.calls ops = .ok (results, after)
        ∧ after.body = self.body
        ∧ self.pos ≤ after.pos
        ∧ after.Within
        ∧ self.rest = (results.map InputResult.piece).flatten ++ after.rest := by
  induction ops generalizing self with
  | nil => exact ⟨[], self, rfl, rfl, Nat.le_refl _, within, rfl⟩
  | cons op ops ih =>
      obtain ⟨result, middle, called, takes⟩ := call_takes within op
      obtain ⟨results, after, later, body, ahead, inside, rests⟩ := ih takes.within
      refine ⟨result :: results, after, ?_, body.trans takes.body,
        Nat.le_trans takes.ahead ahead, inside, ?_⟩
      · simp only [calls, called, later]
        rfl
      · rw [takes.rest, rests, List.map_cons, List.flatten_cons, List.append_assoc]

/-- In any order of calls on a fresh input and its iterators, none goes out of range, the
results together are the body up to the cursor, and the cursor only moves ahead.
-/
theorem input_conserved (body : Bytes) (ops : List InputCall)
    : ∃ results after,
        (new body).calls ops = .ok (results, after)
        ∧ (results.map InputResult.piece).flatten = body.take after.pos
        ∧ after.pos ≤ body.length
        ∧ ∀ op, ∃ result next,
            after.call op = .ok (result, next) ∧ after.pos ≤ next.pos := by
  obtain ⟨results, after, called, same, -, within, rests⟩ :=
    (new body).calls_take ops (Nat.zero_le _)
  refine ⟨results, after, called, ?_, ?_, ?_⟩
  · have whole : (new body).rest = body := List.drop_zero
    have split : body = body.take after.pos ++ after.rest := by
      rw [rest, same]
      exact (List.take_append_drop after.pos body).symm
    rw [whole] at rests
    exact List.append_cancel_right (rests.symm.trans split)
  · have inside := within
    rw [Within, same] at inside
    exact inside
  · intro op
    obtain ⟨result, next, taken, takes⟩ := call_takes within op
    exact ⟨result, next, taken, takes.ahead⟩

-----------------------------------------------------------------------------------------
-- Lines
-----------------------------------------------------------------------------------------

/-- The lines behind the cursor; each keeps its newline. -/
def lines (self : WsgiInput) : List Bytes := cutAfter 10 self.rest

/-- Calls of `readline` give the lines one by one, then nothing, and the cursor is behind the
lines given.
-/
def ReadsLines (self : WsgiInput) : Prop :=
  ∀ count,
    self.calls (List.replicate count (.readline none))
      = .ok
          ((List.range count).map (fun n => .bytes (self.lines[n]?.getD [])),
            { self with pos := self.pos + (self.lines.take count).flatten.length })

/-- The steps of an iterator give the lines one by one, and then it stops. -/
def IteratesLines (self : WsgiInput) (iter : Nat) : Prop :=
  ∀ count,
    (self.calls (List.replicate count (.next iter))).map Prod.fst
      = .ok
          ((List.range count).map fun n =>
            (self.lines[n]?.map InputResult.bytes).getD .stopIteration)

/-- Nothing is behind a cursor at the end. -/
theorem rest_eq_nil_iff (within : self.Within) : self.rest = [] ↔ self.pos = self.body.length := by
  rw [rest, List.drop_eq_nil_iff]
  unfold Within at within
  omega

/-- The same call, which leaves the input as it is, any number of times. Witness: induction
on that number.
-/
theorem calls_idle {op : InputCall} {result : InputResult}
    (idle : self.call op = .ok (result, self)) (count : Nat)
    : self.calls (List.replicate count op) = .ok (List.replicate count result, self) := by
  induction count with
  | zero => rfl
  | succ count ih =>
      rw [List.replicate_succ, calls]
      simp only [idle, ih]
      rfl

/-- At the end of the body `readline` gives nothing and stays. -/
theorem readline_ended (ended : self.rest = []) (within : self.Within) (size : Option Nat)
    : self.readline size = .ok ([], self) := by
  have last : self.pos = self.body.length := (rest_eq_nil_iff within).mp ended
  rw [readline_within within, ended]
  simp only [List.findIdx?_nil, ← last]

/-- Without a newline the first line is all of the rest. -/
theorem readline_last (within : self.Within) (free : 10 ∉ self.rest) (size : Option Nat)
    : self.readline size = .ok (self.rest, { self with pos := self.body.length }) := by
  have none_ : self.rest.findIdx? (· == 10) = none := by
    rw [List.findIdx?_eq_none_iff]
    intro byte member
    exact beq_false_of_ne fun same => free (same ▸ member)
  rw [readline_within within]
  simp only [none_]

/-- With a newline the first line is cut in front of it. -/
theorem readline_cut (within : self.Within) (found : 10 ∈ self.rest) (size : Option Nat)
    : ∃ line after, self.readline size = .ok (line, after) ∧ 10 ∉ line := by
  rw [readline_within within]
  split
  · next none_ =>
      have other := List.findIdx?_eq_none_iff.mp none_ 10 found
      cases other
  · next count at_ =>
      refine ⟨_, _, rfl, ?_⟩
      obtain ⟨inside, -, before⟩ := List.findIdx?_eq_some_iff_getElem.mp at_
      intro member
      obtain ⟨n, bound, same⟩ := List.mem_iff_getElem.mp member
      rw [List.getElem_take] at same
      rw [List.length_take] at bound
      have other := before n (by omega)
      rw [same] at other
      exact other rfl

/-- `readline` gives the lines exactly if there is no newline behind the cursor. -/
theorem readsLines_iff (within : self.Within) : self.ReadsLines ↔ 10 ∉ self.rest := by
  constructor
  · intro reads found
    obtain ⟨line, after, called, free⟩ := readline_cut within found none
    obtain ⟨piece, pieces, cut, inside⟩ := mem_head_cutAfter found
    have first := reads 1
    simp only [List.replicate_succ, List.replicate_zero, calls, call, called] at first
    have same := (Prod.mk.inj (Except.ok.inj first)).1
    rw [lines, cut] at same
    have line_eq : line = piece := InputResult.bytes.inj (List.cons.inj same).1
    exact free (line_eq ▸ inside)
  · intro free count
    rcases rests : self.rest with - | ⟨byte, rest⟩
    · have lines_eq : self.lines = [] := by rw [lines, rests, cutAfter]
      have idle : self.call (.readline none) = .ok (.bytes [], self) := by
        rw [call, readline_ended rests within]
        rfl
      rw [calls_idle idle, lines_eq]
      simp [List.map_const']
    · have lines_eq : self.lines = [self.rest] := by
        rw [lines, rests, cutAfter_of_not_mem (rests ▸ free)]
      let ended : WsgiInput := { self with pos := self.body.length }
      have within' : ended.Within := Nat.le_refl _
      have idle : ended.call (.readline none) = .ok (.bytes [], ended) := by
        rw [call, readline_ended ((rest_eq_nil_iff within').mpr rfl) within']
        rfl
      cases count with
      | zero => simp [calls]
      | succ count =>
          have called
              : self.call (.readline none) = .ok (.bytes self.rest, ended) := by
            rw [call, readline_last within free]
            rfl
          have cursor : self.pos + self.rest.length = self.body.length := by
            rw [length_rest, Nat.add_sub_cancel' within]
          rw [List.replicate_succ, calls]
          simp only [called, calls_idle idle, lines_eq, List.range_succ_eq_map]
          simp [Except.map, List.map_const', ended, Function.comp_def, cursor]

/-- An iterator gives the lines exactly if there is nothing behind the cursor. -/
theorem iteratesLines_iff (within : self.Within) (iter : Nat)
    : self.IteratesLines iter ↔ self.pos = self.body.length := by
  rw [← rest_eq_nil_iff within]
  constructor
  · intro iterates
    have first := iterates 1
    rcases rests : self.rest with - | ⟨byte, rest⟩
    · rfl
    · rw [List.replicate_succ, calls, call, iterNext_within within, rests] at first
      have same := List.cons.inj (Except.ok.inj first)
      rcases cut : self.lines[0]? with - | line
      · simp [cut] at same
      · simp [cut] at same
  · intro ended count
    have idle : self.call (.next iter) = .ok (.stopIteration, self) := by
      rw [call, iterNext_within within, ended]
      rfl
    have lines_eq : self.lines = [] := by rw [lines, ended, cutAfter]
    rw [calls_idle idle, lines_eq]
    simp [Except.map, List.map_const']

/-- Wherever the cursor is, repeated calls of `readline` give the lines behind it exactly if
there is no newline; an iterator gives the same lines exactly if nothing is left.
-/
theorem lines_given_iff (within : self.Within) (iter : Nat)
    : (self.ReadsLines ↔ 10 ∉ self.rest)
      ∧ (self.ReadsLines ∧ self.IteratesLines iter ↔ self.pos = self.body.length) := by
  refine ⟨readsLines_iff within, ?_⟩
  rw [readsLines_iff within, iteratesLines_iff within]
  constructor
  · exact And.right
  · intro ended
    refine ⟨?_, ended⟩
    rw [(rest_eq_nil_iff within).mpr ended]
    exact List.not_mem_nil

/-- At the end of a body with two lines. -/
theorem lines_given_iff_ended
    : ReadsLines ⟨[97, 10, 98], 3⟩ ∧ IteratesLines ⟨[97, 10, 98], 3⟩ 0 :=
  (lines_given_iff (show Within ⟨[97, 10, 98], 3⟩ from Nat.le_refl 3) 0).2.mpr rfl

/-- Of the two lines of a body the first call gives one without its newline, and the second
call gives nothing.
-/
theorem lines_not_given
    : (new [97, 10, 98]).calls [.readline none, .readline none]
        = .ok ([.bytes [97], .bytes []], ⟨[97, 10, 98], 1⟩)
      ∧ ¬ ((new [97, 10, 98]).ReadsLines ∧ (new [97, 10, 98]).IteratesLines 0) := by
  refine ⟨by decide +kernel, ?_⟩
  rintro ⟨reads, -⟩
  have second := reads 1
  revert second
  decide +kernel

-----------------------------------------------------------------------------------------
-- Lists of lines
-----------------------------------------------------------------------------------------

/-- `readlines` returns, after some number of calls of `readline`. -/
def Returns (self : WsgiInput) (size : Option Nat) (list : List Bytes) (after : WsgiInput)
    : Prop :=
  ∃ fuel, self.readlines fuel size = some (.ok (list, after))

/-- `readlines` returns, and without a size it returns all that is behind the cursor. -/
def ReadsAll (self : WsgiInput) (size : Option Nat) : Prop :=
  ∃ list after,
    self.Returns size list after
    ∧ (size = none → list.flatten = self.rest ∧ after.pos = self.body.length)

/-- A call of `readline` that finds its line. -/
theorem readline_takes (within : self.Within) (size : Option Nat)
    : ∃ line after, self.readline size = .ok (line, after) ∧ after.Within := by
  obtain ⟨result, after, called, takes⟩ := call_takes within (.readline size)
  rw [call] at called
  cases reads : self.readline size with
  | error panic => rw [reads] at called; cases called
  | ok read =>
      obtain ⟨line, next⟩ := read
      rw [reads] at called
      obtain ⟨-, rfl⟩ := Prod.mk.inj (Except.ok.inj called)
      exact ⟨line, next, rfl, takes.within⟩

/-- The loop goes on for ever if its count is past the size. Witness: induction on the
turns.
-/
theorem readlinesLoop_none {size : Option Nat} (fuel : Nat) {n : Nat} {list : List Bytes}
    (within : self.Within) (past : ∀ count, size = some count → count < n)
    : readlinesLoop size fuel n self list = none := by
  induction fuel generalizing n self list with
  | zero => rfl
  | succ fuel ih =>
      obtain ⟨line, after, read, inside⟩ := readline_takes within none
      have going : size ≠ some n := fun same => Nat.lt_irrefl n (past n same)
      simp only [readlinesLoop, read, if_neg going]
      exact ih inside fun count same => Nat.lt_succ_of_lt (past count same)

/-- The loop returns when its count reaches the size. Witness: induction on the turns left. -/
theorem readlinesLoop_returns (turns n : Nat) (list : List Bytes) (within : self.Within)
    : ∃ result after,
        readlinesLoop (some (n + turns)) (turns + 1) n self list
          = some (.ok (result, after)) := by
  induction turns generalizing n self list with
  | zero =>
      obtain ⟨line, after, read, -⟩ := readline_takes within none
      refine ⟨list ++ [line], after, ?_⟩
      simp only [readlinesLoop, read, Nat.add_zero, if_true]
  | succ turns ih =>
      obtain ⟨line, after, read, inside⟩ := readline_takes within none
      have going : some (n + (turns + 1)) ≠ some n := by
        intro same
        have := Option.some.inj same
        omega
      obtain ⟨result, last, returns⟩ := ih (n + 1) (list ++ [line]) inside
      refine ⟨result, last, ?_⟩
      rw [readlinesLoop]
      simp only [read, if_neg going]
      rw [show n + (turns + 1) = n + 1 + turns by omega]
      exact returns

/-- `readlines` returns as it should exactly if it is given a positive size. -/
theorem readlines_returns_iff (within : self.Within) (size : Option Nat)
    : self.ReadsAll size ↔ ∃ count, size = some count ∧ 0 < count := by
  constructor
  · rintro ⟨list, after, ⟨fuel, returns⟩, -⟩
    by_contra unsized
    have past : ∀ count, size = some count → count < 1 := by
      intro count same
      by_contra positive
      exact unsized ⟨count, same, by omega⟩
    rw [readlines, readlinesLoop_none fuel within past] at returns
    cases returns
  · rintro ⟨count, rfl, positive⟩
    obtain ⟨list, after, returns⟩ := readlinesLoop_returns (count - 1) 1 [] within
    refine ⟨list, after, ⟨count - 1 + 1, ?_⟩, by nofun⟩
    rw [Nat.add_sub_cancel' positive] at returns
    exact returns

/-- Two lines are asked for. -/
theorem readlines_returns_two : (new [97, 10, 98]).ReadsAll (some 2) :=
  (readlines_returns_iff (show (new [97, 10, 98]).Within from Nat.zero_le _) (some 2)).mpr
    ⟨2, rfl, by decide⟩

/-- With no size it does not return, not even for an empty body. -/
theorem readlines_never : ¬ (new []).ReadsAll none := by
  rintro ⟨list, after, ⟨fuel, returns⟩, -⟩
  have past : ∀ count, (none : Option Nat) = some count → count < 1 := by nofun
  rw [readlines, readlinesLoop_none fuel (Nat.zero_le _) past] at returns
  cases returns

end WsgiInput
end Casket
