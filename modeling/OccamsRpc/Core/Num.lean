import Mathlib.Algebra.Group.Int.Defs
import Mathlib.Algebra.Group.Nat.Defs
import Mathlib.Data.List.Basic
import Mathlib.Tactic.Common
/-!
# Bytes, lengths and the casts between integer types

Lengths are `Nat`; where the source casts one to `u32` or `i32` the cast is
`UInt32.ofNat` or `Int32.ofNat`, which wrap as Rust's `as` does.
-/

namespace OccamsRpc

abbrev Bytes := List UInt8

def u32_MAX : Nat := 2 ^ 32 - 1
def i32_MAX : Nat := 2 ^ 31 - 1
def isize_MAX : Nat := 2 ^ 63 - 1

/-- `n as u32` of a non-negative number has its highest bit clear. -/
theorem toUInt32_lt_of_nonneg {n : Int32} (h : 0 ≤ n) : n.toUInt32.toNat < 2 ^ 31 := by
  have h1 : 0 ≤ n.toInt := by simpa [Int32.le_iff_toInt_le] using h
  rw [← Int32.toInt_toBitVec, BitVec.toInt_eq_toNat_cond] at h1
  have h2 := n.toBitVec.isLt
  show n.toBitVec.toNat < _
  split at h1 <;> omega

theorem toNat_ofNat_u32 {k : Nat} (h : k ≤ u32_MAX) : (UInt32.ofNat k).toNat = k := by
  rw [UInt32.toNat_ofNat']
  exact Nat.mod_eq_of_lt (by unfold u32_MAX at h; omega)

theorem toInt_ofNat_i32 {k : Nat} : (Int32.ofNat k).toInt = k ↔ k ≤ i32_MAX := by
  constructor
  · intro h
    have := (Int32.ofNat k).toInt_lt
    unfold i32_MAX
    omega
  · intro h
    exact Int32.toInt_ofNat_of_lt (by unfold i32_MAX at h; omega)

/-- `x as usize` of an `i32`, which sign-extends. -/
def as_usize (x : Int32) : Nat := (x.toInt % 2 ^ 64).toNat

/-- A length as an `i32` is positive unless there is nothing. -/
theorem ofNat_length_pos {bs : Bytes} (h : bs.length ≤ i32_MAX) :
    Int32.ofNat bs.length > 0 ↔ bs ≠ [] := by
  rw [gt_iff_lt, Int32.lt_iff_toInt_lt, Int32.toInt_zero, toInt_ofNat_i32.2 h, ← List.length_pos_iff]
  omega

theorem as_usize_ofNat {k : Nat} (h : k ≤ i32_MAX) : as_usize (Int32.ofNat k) = k := by
  rw [as_usize, toInt_ofNat_i32.2 h]
  unfold i32_MAX at h
  omega

end OccamsRpc
