import OpenPCC.Lib.Significand

/-!
# `math/bits`

`bits.Len64` and `bits.TrailingZeros64`, with a `uint64` as the number it is.
-/

namespace Go

/-- `bits.Len64`. -/
def len64 (x : Nat) : Nat := if x = 0 then 0 else x.log2 + 1

/-- The zeros at the end of the low `bits` bits of `x`. -/
def trailingZeros : Nat → Nat → Nat
  | 0, _ => 0
  | bits + 1, x => if x % 2 = 1 then 0 else trailingZeros bits (x / 2) + 1

/-- `bits.TrailingZeros64`. -/
def trailingZeros64 (x : Nat) : Nat := trailingZeros 64 x

theorem len64_eq_size (x : Nat) : len64 x = x.size := by
  unfold len64
  split
  · next h =>
    subst h
    rfl
  · next h =>
    have hlog := (Nat.log2_eq_iff h).1 rfl
    have hle := Nat.size_le.2 hlog.2
    have hge := Nat.lt_size.2 hlog.1
    omega

theorem le_trailingZeros_iff {bits x k : Nat} (hk : k ≤ bits) :
    k ≤ trailingZeros bits x ↔ 2 ^ k ∣ x := by
  induction bits generalizing x k with
  | zero =>
    obtain rfl : k = 0 := by omega
    simp
  | succ bits ih =>
    cases k with
    | zero => simp
    | succ k =>
      unfold trailingZeros
      split
      · next hodd =>
        -- an odd number has no zeros at its end
        have hndvd : ¬ 2 ^ (k + 1) ∣ x := by
          intro hdvd
          have h2 : 2 ∣ x := (Nat.dvd_of_pow_dvd (Nat.succ_pos k) hdvd)
          omega
        simp [hndvd]
      · next heven =>
        obtain ⟨y, rfl⟩ : 2 ∣ x := by omega
        rw [Nat.mul_div_cancel_left y (by decide), Nat.add_le_add_iff_right,
          ih (by omega), Nat.pow_succ, Nat.mul_comm, Nat.mul_dvd_mul_iff_left (by decide)]

/-- The distance from the first bit that is set to the last one bounds the precision. -/
theorem len64_sub_trailingZeros64_le_iff {x p : Nat} (hx : x < 2 ^ 64) :
    (len64 x : Int) - trailingZeros64 x ≤ p ↔ Significand.Fits p x := by
  have hsize : x.size ≤ 64 := Nat.size_le.2 hx
  have hle : Significand.excess p x ≤ 64 := by
    unfold Significand.excess
    omega
  rw [Significand.fits_iff_dvd, ← le_trailingZeros_iff hle, len64_eq_size, trailingZeros64]
  unfold Significand.excess
  omega

end Go
