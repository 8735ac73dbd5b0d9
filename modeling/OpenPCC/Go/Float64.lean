import OpenPCC.Lib.Nearest

/-!
# `float64` arithmetic

A finite `float64` is the rational number it stands for, and an operation rounds its exact result to
53 bits (`float64`). The range of the exponents is left out: the program computes with amounts and
with fractions between 0 and 1.
-/

namespace Go

/-- The value of a `float64` computation whose exact result is `q`. -/
def float64 (q : Rat) : Rat := Nearest.round 53 q

/-- `a < b`, where `none` is NaN. -/
def float64Less : Option Rat → Option Rat → Bool
  | some a, some b => a < b
  | _, _ => false

theorem float64_intCast {k : Int} (hk : |k| < 2 ^ 53) : float64 k = k := Nearest.round_intCast hk

theorem float64_div_pow {k : Int} (hk : |k| < 2 ^ 53) (s : Nat) :
    float64 (k / 2 ^ s) = k / 2 ^ s := by
  have hdiv : (k : Rat) / 2 ^ s = k * 2 ^ (-(s : Int)) := by
    rw [zpow_neg, zpow_natCast, div_eq_mul_inv]
  rw [hdiv]
  exact Nearest.round_eq_self hk

theorem float64_neg {q : Rat} (hq : q < 0) : float64 q < 0 := Nearest.round_neg (by decide) hq

theorem le_float64_intCast {k : Int} (hk : 2 ^ 53 ≤ k) : 2 ^ 53 ≤ float64 k := by
  have hpos : (0 : Rat) < k := Int.cast_pos.2 (lt_of_lt_of_le (by positivity) hk)
  have hlog : (53 : Int) ≤ Int.log 2 (k : Rat) := by
    refine (Int.zpow_le_iff_le_log (by decide) hpos).1 ?_
    exact_mod_cast hk
  calc (2 : Rat) ^ 53 = 2 ^ (53 : Int) := (zpow_natCast 2 53).symm
    _ ≤ 2 ^ Int.log 2 (k : Rat) := zpow_le_zpow_right₀ one_le_two hlog
    _ ≤ float64 k := Nearest.zpow_log_le_round (by decide) hpos

end Go
