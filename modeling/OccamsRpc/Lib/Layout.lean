import Mathlib.Algebra.GroupWithZero.Nat
import Mathlib.Data.List.Basic
import Mathlib.Tactic.Common
/-!
# Packed little-endian records

A packed record is a list of unsigned fields, each of a fixed width in bytes,
written one after the other with the least significant byte first.
-/

namespace Lib.Layout

/-- The `n` low bytes of `x`, least significant first. -/
def le : Nat → Nat → List UInt8
  | 0, _ => []
  | n + 1, x => UInt8.ofNat x :: le n (x / 256)

/-- The number a little-endian byte list stands for. -/
def ofLe : List UInt8 → Nat
  | [] => 0
  | b :: bs => b.toNat + 256 * ofLe bs

@[simp] theorem length_le (n x : Nat) : (le n x).length = n := by
  induction n generalizing x with
  | zero => rfl
  | succ n ih => simp [le, ih]

/-- A number that fits its width is read back. -/
theorem ofLe_le (n x : Nat) (h : x < 256 ^ n) : ofLe (le n x) = x := by
  induction n generalizing x with
  | zero => simp only [Nat.pow_zero] at h; simp only [le, ofLe]; omega
  | succ n ih =>
    have hd :
        x / 256 < 256 ^ n := Nat.div_lt_of_lt_mul (by rw [Nat.pow_succ, Nat.mul_comm] at h; exact h)
    simp only [le, ofLe, ih _ hd, UInt8.toNat_ofNat']
    omega

/-- The bytes of a record, given as its fields' widths and values. -/
def pack : List (Nat × Nat) → List UInt8
  | [] => []
  | (w, x) :: fs => le w x ++ pack fs

/-- The values of a record's fields, given their widths. -/
def unpack : List Nat → List UInt8 → List Nat
  | [], _ => []
  | w :: ws, bs => ofLe (bs.take w) :: unpack ws (bs.drop w)

@[simp] theorem length_pack (fs : List (Nat × Nat)) : (pack fs).length = (fs.map Prod.fst).sum := by
  induction fs with
  | nil => rfl
  | cons f fs ih => simp [pack, ih]

/-- A record whose values fit their widths is read back. -/
theorem unpack_pack (fs : List (Nat × Nat)) (h : ∀ f ∈ fs, f.2 < 256 ^ f.1) :
    unpack (fs.map Prod.fst) (pack fs) = fs.map Prod.snd := by
  induction fs with
  | nil => rfl
  | cons f fs ih =>
    have hf := ofLe_le f.1 f.2 (h f (by simp))
    have hfs := ih fun g hg => h g (by simp [hg])
    simp [pack, unpack, List.take_left' (length_le _ _), List.drop_left' (length_le _ _), hf, hfs]

end Lib.Layout
