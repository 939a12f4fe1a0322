import Mathlib.Data.Nat.Basic
import Mathlib.Algebra.Order.Ring.Nat
import Casket.Lib.Framing

/-! Fixed-width words as bytes, and the two size prefixes built from them. -/

namespace Lib

/-- The `width` low bytes of a number, least significant first. -/
def leBytes : Nat → Nat → List UInt8
  | 0, _ => []
  | width + 1, value => UInt8.ofNat value :: leBytes width (value / 256)

/-- The number a little-endian byte string denotes. -/
def leValue : List UInt8 → Nat
  | [] => 0
  | byte :: rest => byte.toNat + 256 * leValue rest

/-- `to_be_bytes`: most significant byte first. -/
def beBytes (width value : Nat) : List UInt8 := (leBytes width value).reverse

/-- `from_be_bytes`. -/
def beValue (bytes : List UInt8) : Nat := leValue bytes.reverse

@[simp]
theorem length_leBytes (width value : Nat) : (leBytes width value).length = width := by
  induction width generalizing value with
  | zero => rfl
  | succ width ih => simp [leBytes, ih]

@[simp]
theorem length_beBytes (width value : Nat) : (beBytes width value).length = width := by
  simp [beBytes]

/-- A word read back from its bytes loses exactly what does not fit the width.
Witness: induction on the width, one byte at a time.
-/
theorem leValue_leBytes (width value : Nat)
    : leValue (leBytes width value) = value % 256 ^ width := by
  induction width generalizing value with
  | zero => simp [leBytes, leValue, Nat.mod_one]
  | succ width ih =>
      have low : (UInt8.ofNat value).toNat = value % 256 := by simp
      simp only [leBytes, leValue, low, ih, Nat.pow_succ']
      exact (Nat.mod_mul).symm

/-- A value below the width's range survives the round trip, in either byte order. -/
theorem leValue_leBytes_of_lt {width value : Nat} (small : value < 256 ^ width)
    : leValue (leBytes width value) = value := by
  rw [leValue_leBytes, Nat.mod_eq_of_lt small]

theorem beValue_beBytes_of_lt {width value : Nat} (small : value < 256 ^ width)
    : beValue (beBytes width value) = value := by
  rw [beValue, beBytes, List.reverse_reverse, leValue_leBytes_of_lt small]

-----------------------------------------------------------------------------------------
-- Size prefixes
-----------------------------------------------------------------------------------------

/-- Frames behind a single size byte, read while any byte waits. -/
def bytePrefixed : FrameFormat where
  header := 1
  slack := 0
  limit := 256
  writeSize size := [UInt8.ofNat size]
  readSize buf := (buf.headD 0).toNat
  length_writeSize _ := rfl
  readSize_writeSize size rest small := by simp [Nat.mod_eq_of_lt small]
  header_pos := by decide
  header_le := by decide

/-- Frames behind a four-byte big-endian size, read while more than four bytes wait. -/
def wordPrefixed : FrameFormat where
  header := 4
  slack := 4
  limit := 2 ^ 32
  writeSize size := beBytes 4 size
  readSize buf := beValue (buf.take 4)
  length_writeSize size := length_beBytes 4 size
  readSize_writeSize size rest small := by
    have width := length_beBytes 4 size
    rw [List.take_append_of_le_length (Nat.le_of_eq width.symm),
      List.take_of_length_le (Nat.le_of_eq width)]
    exact beValue_beBytes_of_lt small
  header_pos := by decide
  header_le := by decide

end Lib
