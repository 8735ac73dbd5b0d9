import Mathlib.Data.ZMod.Basic
import OpenPCC.Go.Error

/-!
# `int64` arithmetic modulo the word

Two `int64` computations have the same value if their exact results agree in the integers modulo
`2 ^ 64` (`int64_eq_int64_iff`). There an `int64` in the middle of a computation can be dropped
(`cast_int64`), and what is left is an equation in a commutative ring.
-/

namespace Go

/-- The integers modulo the number of values of an `int64`. -/
abbrev Word : Type := ZMod (2 ^ 64)

@[simp]
theorem cast_int64 (x : Int) : ((int64 x : Int) : Word) = x := by
  rw [ZMod.intCast_eq_intCast_iff]
  exact Int.bmod_emod

theorem int64_eq_int64_iff {x y : Int} : int64 x = int64 y ↔ (x : Word) = y := by
  constructor
  · intro h
    rw [← cast_int64 x, h, cast_int64]
  · intro h
    rw [ZMod.intCast_eq_intCast_iff'] at h
    rw [int64, int64, ← Int.emod_bmod x, ← Int.emod_bmod y]
    exact congrArg (Int.bmod · (2 ^ 64)) h

theorem int64_add_eq_self_iff {x y : Int} (hx : int64 x = x) :
    int64 (x + y) = x ↔ int64 y = 0 := by
  have hzero : int64 0 = 0 := by decide
  rw [← hx, int64_int64_add, int64_eq_int64_iff, ← hzero, int64_eq_int64_iff]
  simp

theorem int64_neg_eq_zero_iff {x : Int} : int64 (-x) = 0 ↔ int64 x = 0 := by
  have hzero : int64 0 = 0 := by decide
  rw [← hzero, int64_eq_int64_iff, int64_eq_int64_iff]
  simp

end Go
