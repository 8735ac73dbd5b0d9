import Mathlib.Data.Int.Log
import Mathlib.Data.Rat.Floor
import Mathlib.Tactic.Linarith

/-!
# Rounding to a precision

`round p q` is the binary number of `p` bits nearest to `q`, with any exponent; of two that are
equally near it is the one with the even last bit. A number of at most `p` bits is not changed
(`round_eq_self`), and the first bit of a number is kept (`zpow_log_le_round`).
-/

namespace Nearest

/-- The nearest integer; the even one of two. -/
def nearestEven (q : Rat) : Int :=
  if 2 * Int.fract q < 1 ∨ 2 * Int.fract q = 1 ∧ ⌊q⌋ % 2 = 0 then ⌊q⌋ else ⌊q⌋ + 1

/-- The value of the last of the `p` bits of `q`. -/
def ulp (p : Nat) (q : Rat) : Rat := 2 ^ (Int.log 2 |q| + 1 - p)

def round (p : Nat) (q : Rat) : Rat := nearestEven (q / ulp p q) * ulp p q

variable {p : Nat}

theorem nearestEven_intCast (k : Int) : nearestEven k = k := by
  simp [nearestEven]

theorem ulp_ne_zero {q : Rat} : ulp p q ≠ 0 := zpow_ne_zero _ two_ne_zero

theorem round_of_div_ulp {q : Rat} {k : Int} (h : q / ulp p q = k) : round p q = q := by
  rw [round, h, nearestEven_intCast, ← h, div_mul_cancel₀ _ ulp_ne_zero]

theorem round_eq_self {k j : Int} (hk : |k| < 2 ^ p) : round p (k * 2 ^ j) = k * 2 ^ j := by
  rcases eq_or_ne k 0 with rfl | hne
  · exact round_of_div_ulp (k := 0) (by simp)
  · have hj : (0 : Rat) < 2 ^ j := zpow_pos two_pos j
    have habs : |(k : Rat) * 2 ^ j| = |(k : Rat)| * 2 ^ j := by
      rw [abs_mul, abs_of_pos hj]
    have hpos : 0 < |(k : Rat) * 2 ^ j| := by
      rw [habs]
      exact mul_pos (abs_pos.2 (Int.cast_ne_zero.2 hne)) hj
    have hlt : |(k : Rat) * 2 ^ j| < ((2 : Nat) : Rat) ^ ((p : Int) + j) := by
      rw [habs, Nat.cast_ofNat, zpow_add₀ two_ne_zero, zpow_natCast]
      exact mul_lt_mul_of_pos_right (by exact_mod_cast hk) hj
    -- the last of the `p` bits is not above the last bit that is set
    have hlog := (Int.lt_zpow_iff_log_lt (by decide) hpos).1 hlt
    obtain ⟨d, hd⟩ : ∃ d : Nat, j = Int.log 2 |(k : Rat) * 2 ^ j| + 1 - p + d :=
      ⟨(j - (Int.log 2 |(k : Rat) * 2 ^ j| + 1 - p)).toNat, by omega⟩
    refine round_of_div_ulp (k := k * 2 ^ d) ?_
    rw [div_eq_iff ulp_ne_zero, ulp]
    rw [Int.cast_mul, Int.cast_pow, Int.cast_ofNat, mul_assoc, ← zpow_natCast,
      ← zpow_add₀ two_ne_zero, add_comm (d : Int), ← hd]

theorem round_intCast {k : Int} (hk : |k| < 2 ^ p) : round p k = k := by
  simpa using round_eq_self (j := 0) hk

/-! ## Bounds -/

theorem floor_le_nearestEven (q : Rat) : ⌊q⌋ ≤ nearestEven q := by
  unfold nearestEven
  split
  · exact le_rfl
  · omega

theorem nearestEven_le (q : Rat) : nearestEven q ≤ ⌊q⌋ + 1 := by
  unfold nearestEven
  split
  · omega
  · exact le_rfl

theorem ulp_pos {q : Rat} : 0 < ulp p q := zpow_pos two_pos _

/-- A number has its first bit `p - 1` places above the last of its `p` bits. -/
theorem pow_le_abs_div_ulp (hp : 0 < p) {q : Rat} (hq : q ≠ 0) : 2 ^ (p - 1) ≤ |q| / ulp p q := by
  have hlog := Int.zpow_log_le_self (b := 2) (by decide) (abs_pos.2 hq)
  rw [le_div_iff₀ ulp_pos, ulp, ← zpow_natCast, ← zpow_add₀ two_ne_zero]
  rw [Nat.cast_ofNat] at hlog
  have hexp : ((p - 1 : Nat) : Int) + (Int.log 2 |q| + 1 - p) = Int.log 2 |q| := by omega
  rw [hexp]
  exact hlog

theorem zpow_log_le_round (hp : 0 < p) {q : Rat} (hq : 0 < q) :
    2 ^ Int.log 2 q ≤ round p q := by
  have hdiv := pow_le_abs_div_ulp hp hq.ne'
  rw [abs_of_pos hq] at hdiv
  have hfloor : ((2 ^ (p - 1) : Int) : Rat) ≤ nearestEven (q / ulp p q) := by
    have hle : (2 ^ (p - 1) : Int) ≤ ⌊q / ulp p q⌋ := Int.le_floor.2 (by exact_mod_cast hdiv)
    exact_mod_cast hle.trans (floor_le_nearestEven _)
  have hexp : ((p - 1 : Nat) : Int) + (Int.log 2 |q| + 1 - p) = Int.log 2 q := by
    rw [abs_of_pos hq]
    omega
  calc (2 : Rat) ^ Int.log 2 q = 2 ^ (p - 1) * ulp p q := by
        rw [ulp, ← zpow_natCast, ← zpow_add₀ two_ne_zero, hexp]
    _ ≤ round p q := mul_le_mul_of_nonneg_right (by exact_mod_cast hfloor) ulp_pos.le

theorem round_neg (hp : 1 < p) {q : Rat} (hq : q < 0) : round p q < 0 := by
  have hdiv := pow_le_abs_div_ulp (Nat.zero_lt_of_lt hp) hq.ne
  rw [abs_of_neg hq, neg_div] at hdiv
  have htwo : (2 : Rat) ≤ 2 ^ (p - 1) := le_self_pow₀ one_le_two (by omega)
  have hfloor : ⌊q / ulp p q⌋ ≤ -2 := by
    have hle : q / ulp p q ≤ ((-2 : Int) : Rat) := by
      rw [Int.cast_neg, Int.cast_ofNat]
      linarith
    exact (Int.floor_mono hle).trans (Int.floor_intCast _).le
  have hneg : nearestEven (q / ulp p q) < 0 := by
    have := nearestEven_le (q / ulp p q)
    omega
  exact mul_neg_of_neg_of_pos (Int.cast_lt_zero.2 hneg) ulp_pos

end Nearest
