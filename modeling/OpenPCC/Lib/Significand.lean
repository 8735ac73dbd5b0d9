import Mathlib.Data.Nat.Size
import Mathlib.Order.Monotone.Basic
import Mathlib.Tactic.Ring

/-!
# Numbers of bounded precision

A number fits in `p` bits if it is below `2 ^ p` up to trailing zeros (`Fits`). The numbers that fit
are the multiples of a power of two around each number (`fits_iff_dvd`), so `down` and `up` are the
neighbours of a number among them. `decode p` lists the numbers of `p + 1` bits in their order
(`decode_strictMono`, `decode_encode`): the codes below `2 ^ p` stand for themselves, and after them
every `2 ^ p` codes share an exponent.
-/

namespace Significand

def Fits (p n : Nat) : Prop := ∃ m k, m < 2 ^ p ∧ n = m * 2 ^ k

/-- The number of bits of `n` after the first `p`. -/
def excess (p n : Nat) : Nat := n.size - p

variable {p m n v : Nat}

theorem fits_iff_dvd : Fits p n ↔ 2 ^ excess p n ∣ n := by
  constructor
  · rintro ⟨m, k, hm, rfl⟩
    have hlt : m * 2 ^ k < 2 ^ (p + k) := by
      rw [Nat.pow_add]
      exact Nat.mul_lt_mul_of_pos_right hm (Nat.two_pow_pos k)
    have hsize := Nat.size_le.2 hlt
    have hle : excess p (m * 2 ^ k) ≤ k := by
      unfold excess
      omega
    exact (Nat.pow_dvd_pow 2 hle).trans (Nat.dvd_mul_left _ _)
  · rintro ⟨m, hm⟩
    refine ⟨m, excess p n, ?_, by rw [Nat.mul_comm]; exact hm⟩
    have hlt : n < 2 ^ (p + excess p n) :=
      lt_of_lt_of_le (Nat.lt_size_self n)
        (Nat.pow_le_pow_right (by decide) (by unfold excess; omega))
    rw [Nat.pow_add, Nat.mul_comm] at hlt
    nth_rewrite 1 [hm] at hlt
    exact Nat.lt_of_mul_lt_mul_left hlt

theorem fits_of_lt (h : n < 2 ^ p) : Fits p n := ⟨n, 0, h, by simp⟩

/-! ## Neighbours -/

/-- The first `p` bits of `n`. -/
def down (p n : Nat) : Nat := n / 2 ^ excess p n * 2 ^ excess p n

/-- The next number after `down p n` with the same exponent. -/
def up (p n : Nat) : Nat := (n / 2 ^ excess p n + 1) * 2 ^ excess p n

theorem down_le : down p n ≤ n := Nat.div_mul_le_self _ _

theorem lt_up : n < up p n := by
  rw [up, Nat.mul_comm]
  exact Nat.lt_mul_div_succ n (Nat.two_pow_pos _)

theorem up_eq_down_add : up p n = down p n + 2 ^ excess p n := by
  rw [up, down, Nat.add_mul, Nat.one_mul]

theorem div_excess_lt : n / 2 ^ excess p n < 2 ^ p := by
  rw [Nat.div_lt_iff_lt_mul (Nat.two_pow_pos _), ← Nat.pow_add]
  exact lt_of_lt_of_le (Nat.lt_size_self n)
    (Nat.pow_le_pow_right (by decide) (by unfold excess; omega))

theorem fits_down : Fits p (down p n) := ⟨_, _, div_excess_lt, rfl⟩

theorem fits_up (hp : 0 < p) : Fits p (up p n) := by
  rcases Nat.lt_or_eq_of_le (Nat.succ_le_of_lt (div_excess_lt (p := p) (n := n))) with hlt | heq
  · exact ⟨_, _, hlt, rfl⟩
  · -- the carry into the next power of two
    refine ⟨1, p + excess p n, Nat.one_lt_two_pow hp.ne', ?_⟩
    rw [up, ← Nat.succ_eq_add_one, heq, Nat.pow_add, Nat.one_mul]

theorem pow_le_div_excess (hp : 0 < p) (he : 0 < excess p n) :
    2 ^ (p - 1) ≤ n / 2 ^ excess p n := by
  rw [Nat.le_div_iff_mul_le (Nat.two_pow_pos _), ← Nat.pow_add, ← Nat.lt_size]
  unfold excess at he ⊢
  omega

/-- Around `n` the numbers that fit are multiples of one power of two. -/
theorem pow_excess_dvd (hp : 0 < p) (hm : Fits p m) (h : down p n ≤ m) : 2 ^ excess p n ∣ m := by
  rcases Nat.eq_zero_or_pos (excess p n) with he | he
  · rw [he]
    exact Nat.one_dvd m
  · have hle : 2 ^ (p - 1 + excess p n) ≤ m := by
      rw [Nat.pow_add]
      exact (Nat.mul_le_mul_right _ (pow_le_div_excess hp he)).trans h
    have hsize := Nat.lt_size.2 hle
    have hexcess : excess p n ≤ excess p m := by
      unfold excess at he hsize ⊢
      omega
    exact (Nat.pow_dvd_pow 2 hexcess).trans (fits_iff_dvd.1 hm)

theorem le_down (hp : 0 < p) (hm : Fits p m) (h : m ≤ n) : m ≤ down p n := by
  by_contra! hlt
  obtain ⟨c, rfl⟩ := pow_excess_dvd hp hm hlt.le
  rw [down, Nat.mul_comm] at hlt
  have hc : n / 2 ^ excess p n < c := Nat.lt_of_mul_lt_mul_left hlt
  rw [Nat.div_lt_iff_lt_mul (Nat.two_pow_pos _), Nat.mul_comm] at hc
  omega

theorem up_le (hp : 0 < p) (hm : Fits p m) (h : n < m) : up p n ≤ m := by
  obtain ⟨c, rfl⟩ := pow_excess_dvd hp hm (down_le.trans h.le)
  rw [up, Nat.mul_comm]
  refine Nat.mul_le_mul_left _ ?_
  exact Nat.succ_le_of_lt ((Nat.div_lt_iff_lt_mul (Nat.two_pow_pos _)).2 (by rwa [Nat.mul_comm]))

theorem down_eq_iff_fits (hp : 0 < p) : down p n = n ↔ Fits p n := by
  constructor
  · intro h
    rw [← h]
    exact fits_down
  · intro h
    exact le_antisymm down_le (le_down hp h le_rfl)

/-! ## Codes -/

/-- The number with the code `v`. -/
def decode (p v : Nat) : Nat :=
  if v < 2 ^ p then v else (2 ^ p + v % 2 ^ p) * 2 ^ (v / 2 ^ p - 1)

/-- The code of a number that fits. -/
def encode (p n : Nat) : Nat :=
  if n < 2 ^ p then n
  else (excess (p + 1) n + 1) * 2 ^ p + n / 2 ^ excess (p + 1) n % 2 ^ p

theorem decode_normal {e r : Nat} (hr : r < 2 ^ p) :
    decode p ((e + 1) * 2 ^ p + r) = (2 ^ p + r) * 2 ^ e := by
  have hpos := Nat.two_pow_pos p
  have hdiv : ((e + 1) * 2 ^ p + r) / 2 ^ p = e + 1 := by
    rw [Nat.mul_comm, Nat.mul_add_div hpos, Nat.div_eq_of_lt hr, Nat.add_zero]
  have hmod : ((e + 1) * 2 ^ p + r) % 2 ^ p = r := by
    rw [Nat.mul_comm, Nat.mul_add_mod, Nat.mod_eq_of_lt hr]
  have hge : ¬ (e + 1) * 2 ^ p + r < 2 ^ p := by
    rw [Nat.add_mul, Nat.one_mul]
    omega
  rw [decode, if_neg hge, hdiv, hmod, Nat.add_sub_cancel]

theorem code_cases (p v : Nat) : v < 2 ^ p ∨ ∃ e r, r < 2 ^ p ∧ v = (e + 1) * 2 ^ p + r := by
  by_cases h : v < 2 ^ p
  · exact .inl h
  · right
    have hdiv : 0 < v / 2 ^ p := Nat.div_pos (by omega) (Nat.two_pow_pos p)
    refine ⟨v / 2 ^ p - 1, v % 2 ^ p, Nat.mod_lt _ (Nat.two_pow_pos p), ?_⟩
    rw [Nat.sub_add_cancel hdiv]
    exact (Nat.div_add_mod' v (2 ^ p)).symm

theorem fits_decode : Fits (p + 1) (decode p v) := by
  rcases code_cases p v with h | ⟨e, r, hr, rfl⟩
  · rw [decode, if_pos h]
    exact fits_of_lt (by rw [Nat.pow_succ]; omega)
  · rw [decode_normal hr]
    exact ⟨2 ^ p + r, e, by rw [Nat.pow_succ]; omega, rfl⟩

theorem decode_lt_succ : decode p v < decode p (v + 1) := by
  rcases code_cases p v with h | ⟨e, r, hr, rfl⟩
  · rw [decode, if_pos h]
    by_cases hnext : v + 1 < 2 ^ p
    · rw [decode, if_pos hnext]
      exact Nat.lt_succ_self v
    · -- the first code with an exponent
      have hv : v + 1 = (0 + 1) * 2 ^ p + 0 := by omega
      rw [hv, decode_normal (Nat.two_pow_pos p)]
      omega
  · rw [decode_normal hr]
    by_cases hnext : r + 1 < 2 ^ p
    · rw [Nat.add_assoc, decode_normal hnext]
      exact Nat.mul_lt_mul_of_pos_right (by omega) (Nat.two_pow_pos e)
    · have hv : (e + 1) * 2 ^ p + r + 1 = (e + 1 + 1) * 2 ^ p + 0 := by
        rw [Nat.add_mul (e + 1)]
        omega
      rw [hv, decode_normal (Nat.two_pow_pos p), Nat.pow_succ, Nat.mul_comm (2 ^ e),
        ← Nat.mul_assoc]
      exact Nat.mul_lt_mul_of_pos_right (by omega) (Nat.two_pow_pos e)

theorem decode_strictMono (p : Nat) : StrictMono (decode p) :=
  strictMono_nat_of_lt_succ fun _ => decode_lt_succ

theorem decode_encode (h : Fits (p + 1) n) : decode p (encode p n) = n := by
  unfold encode
  split
  · next hlt => rw [decode, if_pos hlt]
  · next hge =>
    have hpow : 2 ^ p ≤ n / 2 ^ excess (p + 1) n := by
      rcases Nat.eq_zero_or_pos (excess (p + 1) n) with he | he
      · rw [he]
        simpa using hge
      · exact pow_le_div_excess (Nat.succ_pos p) he
    have hlt : n / 2 ^ excess (p + 1) n < 2 ^ p + 2 ^ p := by
      have := div_excess_lt (p := p + 1) (n := n)
      rw [Nat.pow_succ] at this
      omega
    have hmod : n / 2 ^ excess (p + 1) n % 2 ^ p = n / 2 ^ excess (p + 1) n - 2 ^ p := by
      rw [Nat.mod_eq_sub_mod hpow, Nat.mod_eq_of_lt (by omega)]
    rw [decode_normal (Nat.mod_lt _ (Nat.two_pow_pos p)), hmod, Nat.add_sub_cancel' hpow]
    exact Nat.div_mul_cancel (fits_iff_dvd.1 h)

end Significand
