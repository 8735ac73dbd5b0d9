import Mathlib.Data.Nat.Bitwise
import OpenPCC.Lib.Bytes

/-!
# CRC-32 (`hash/crc32`)

`checksumIEEE` divides the message by the IEEE polynomial, bit by bit and in reversed bit order. A
shift of the remainder is linear (`crc32Shift_xor`) and has an inverse (`crc32Unshift`); so messages
with the same end have different checksums if the remainders before it are different
(`foldl_crc32Byte_inj`), and four bytes can be chosen to get any remainder
(`exists_foldl_crc32Byte`).
-/

namespace Go

/-- The IEEE polynomial, reversed. -/
def ieee : Nat := 0xEDB88320

/-- One step of the division. -/
def crc32Shift (c : Nat) : Nat := if c % 2 = 1 then c >>> 1 ^^^ ieee else c >>> 1

def crc32Byte (c : Nat) (b : UInt8) : Nat := crc32Shift^[8] (c ^^^ b.toNat)

/-- `crc32.ChecksumIEEE`. -/
def checksumIEEE (data : Bytes) : Nat := data.foldl crc32Byte 0xFFFFFFFF ^^^ 0xFFFFFFFF

example : checksumIEEE "123456789".toUTF8.toList = 0xCBF43926 := by
  decide +kernel

/-! ## Shifts -/

theorem crc32Shift_xor (a b : Nat) : crc32Shift (a ^^^ b) = crc32Shift a ^^^ crc32Shift b := by
  have hparity : (a ^^^ b) % 2 = (a + b) % 2 := Nat.xor_mod_two_eq
  unfold crc32Shift
  rw [Nat.shiftRight_xor_distrib, hparity]
  by_cases ha : a % 2 = 1 <;> by_cases hb : b % 2 = 1
  · rw [if_neg (by omega), if_pos ha, if_pos hb, Nat.xor_comm (b >>> 1), ← Nat.xor_assoc,
      Nat.xor_assoc (a >>> 1), Nat.xor_self, Nat.xor_zero]
  · rw [if_pos (by omega), if_pos ha, if_neg hb, Nat.xor_assoc, Nat.xor_assoc,
      Nat.xor_comm (b >>> 1)]
  · rw [if_pos (by omega), if_neg ha, if_pos hb, Nat.xor_assoc]
  · rw [if_neg (by omega), if_neg ha, if_neg hb]

theorem crc32Shift_two_mul (c : Nat) : crc32Shift (2 * c) = c := by
  rw [crc32Shift, if_neg (by omega), Nat.shiftRight_one, Nat.mul_div_cancel_left c Nat.two_pos]

theorem crc32Shift_lt {c : Nat} (hc : c < 2 ^ 32) : crc32Shift c < 2 ^ 32 := by
  have hhalf : c >>> 1 < 2 ^ 32 := by
    rw [Nat.shiftRight_one]
    omega
  unfold crc32Shift
  split
  · exact Nat.xor_lt_two_pow hhalf (by decide)
  · exact hhalf

/-- The inverse of a shift: the highest bit of the result is the one that was shifted out. -/
def crc32Unshift (d : Nat) : Nat := if 2 ^ 31 ≤ d then 2 * (d ^^^ ieee) + 1 else 2 * d

theorem crc32Shift_crc32Unshift (d : Nat) : crc32Shift (crc32Unshift d) = d := by
  unfold crc32Unshift
  split
  · rw [crc32Shift, if_pos (by omega), Nat.shiftRight_one,
      show (2 * (d ^^^ ieee) + 1) / 2 = d ^^^ ieee by omega, Nat.xor_assoc, Nat.xor_self,
      Nat.xor_zero]
  · exact crc32Shift_two_mul d

theorem crc32Unshift_crc32Shift {c : Nat} (hc : c < 2 ^ 32) : crc32Unshift (crc32Shift c) = c := by
  have hhalf : c >>> 1 = c / 2 := Nat.shiftRight_one c
  unfold crc32Shift
  split
  · -- the polynomial sets the highest bit, which is clear after the shift
    have hbit : (c >>> 1 ^^^ ieee).testBit 31 = true := by
      rw [Nat.testBit_xor, Nat.testBit_lt_two_pow (by omega : c >>> 1 < 2 ^ 31)]
      decide
    rw [crc32Unshift, if_pos (Nat.ge_two_pow_of_testBit hbit), Nat.xor_assoc, Nat.xor_self,
      Nat.xor_zero]
    omega
  · rw [crc32Unshift, if_neg (by omega)]
    omega

theorem crc32Unshift_lt {d : Nat} (hd : d < 2 ^ 32) : crc32Unshift d < 2 ^ 32 := by
  unfold crc32Unshift
  split
  · next hle =>
    have hlt : d ^^^ ieee < 2 ^ 31 := by
      refine Nat.lt_pow_two_of_testBit _ fun i hi => ?_
      rcases Nat.lt_or_ge i 32 with h32 | h32
      · obtain rfl : i = 31 := by omega
        have hbit : d.testBit 31 = true := by
          rw [Nat.testBit_eq_decide_div_mod_eq, decide_eq_true_eq]
          omega
        rw [Nat.testBit_xor, hbit]
        decide
      · have hpow : 2 ^ 32 ≤ 2 ^ i := Nat.pow_le_pow_right Nat.two_pos h32
        have hieee : ieee < 2 ^ 32 := by decide
        rw [Nat.testBit_xor, Nat.testBit_lt_two_pow (by omega), Nat.testBit_lt_two_pow (by omega)]
        rfl
    omega
  · omega

/-! ## Bytes -/

theorem iterate_crc32Shift_xor (n a b : Nat) :
    crc32Shift^[n] (a ^^^ b) = crc32Shift^[n] a ^^^ crc32Shift^[n] b := by
  induction n generalizing a b with
  | zero => rfl
  | succ n ih => rw [Function.iterate_succ_apply, crc32Shift_xor, ih, ← Function.iterate_succ_apply,
      ← Function.iterate_succ_apply]

theorem iterate_crc32Shift_two_pow_mul (n c : Nat) : crc32Shift^[n] (2 ^ n * c) = c := by
  induction n with
  | zero => exact Nat.one_mul c
  | succ n ih => rw [Function.iterate_succ_apply, Nat.pow_succ', Nat.mul_assoc, crc32Shift_two_mul,
      ih]

theorem iterate_crc32Shift_lt (n : Nat) {c : Nat} (hc : c < 2 ^ 32) :
    crc32Shift^[n] c < 2 ^ 32 := by
  induction n with
  | zero => exact hc
  | succ n ih =>
    rw [Function.iterate_succ_apply']
    exact crc32Shift_lt ih

theorem iterate_crc32Shift_inj (n : Nat) {a b : Nat} (ha : a < 2 ^ 32) (hb : b < 2 ^ 32)
    (h : crc32Shift^[n] a = crc32Shift^[n] b) : a = b := by
  induction n generalizing a b with
  | zero => exact h
  | succ n ih =>
    have hshift := ih (crc32Shift_lt ha) (crc32Shift_lt hb) h
    rw [← crc32Unshift_crc32Shift ha, hshift, crc32Unshift_crc32Shift hb]

theorem byte_lt (b : UInt8) : b.toNat < 2 ^ 32 := b.toNat_lt.trans (by decide)

theorem crc32Byte_lt {c : Nat} (hc : c < 2 ^ 32) (b : UInt8) : crc32Byte c b < 2 ^ 32 :=
  iterate_crc32Shift_lt 8 (Nat.xor_lt_two_pow hc (byte_lt b))

theorem foldl_crc32Byte_lt {c : Nat} (hc : c < 2 ^ 32) (data : Bytes) :
    data.foldl crc32Byte c < 2 ^ 32 := by
  induction data generalizing c with
  | nil => exact hc
  | cons b data ih => exact ih (crc32Byte_lt hc b)

theorem crc32Byte_inj {a c : Nat} (ha : a < 2 ^ 32) (hc : c < 2 ^ 32) {b : UInt8}
    (h : crc32Byte a b = crc32Byte c b) : a = c := by
  have hxor := iterate_crc32Shift_inj 8 (Nat.xor_lt_two_pow ha (byte_lt b))
    (Nat.xor_lt_two_pow hc (byte_lt b)) h
  exact Nat.xor_left_inj.1 hxor

theorem foldl_crc32Byte_inj {a c : Nat} (ha : a < 2 ^ 32) (hc : c < 2 ^ 32) {data : Bytes}
    (h : data.foldl crc32Byte a = data.foldl crc32Byte c) : a = c := by
  induction data generalizing a c with
  | nil => exact h
  | cons b data ih => exact crc32Byte_inj ha hc (ih (crc32Byte_lt ha b) (crc32Byte_lt hc b) h)

theorem checksumIEEE_lt (data : Bytes) : checksumIEEE data < 2 ^ 32 :=
  Nat.xor_lt_two_pow (foldl_crc32Byte_lt (by decide) data) (by decide)

/-! ## Any remainder -/

/-- The low `n` bytes of `w`, the lowest first. -/
def littleEndian : Nat → Nat → Bytes
  | 0, _ => []
  | n + 1, w => UInt8.ofNat w :: littleEndian n (w / 2 ^ 8)

theorem mod_xor_mul_div (w : Nat) : w % 2 ^ 8 ^^^ 2 ^ 8 * (w / 2 ^ 8) = w := by
  apply Nat.eq_of_testBit_eq
  intro i
  rw [Nat.testBit_xor, Nat.testBit_mod_two_pow, Nat.testBit_two_pow_mul, Nat.testBit_div_two_pow]
  by_cases hi : i < 8
  · simp [hi, Nat.not_le.2 hi]
  · rw [Nat.sub_add_cancel (Nat.le_of_not_lt hi)]
    simp [hi, Nat.le_of_not_lt hi]

/-- The division of some bytes is that of the number they are. -/
theorem foldl_littleEndian (n c w : Nat) :
    (littleEndian n w).foldl crc32Byte c ^^^ w / 2 ^ (8 * n) = crc32Shift^[8 * n] (c ^^^ w) := by
  induction n generalizing c w with
  | zero => simp [littleEndian]
  | succ n ih =>
    have hbyte : (UInt8.ofNat w).toNat = w % 2 ^ 8 := UInt8.toNat_ofNat'
    have hstep : crc32Byte c (UInt8.ofNat w) ^^^ w / 2 ^ 8 = crc32Shift^[8] (c ^^^ w) := by
      nth_rewrite 1 [← iterate_crc32Shift_two_pow_mul 8 (w / 2 ^ 8)]
      rw [crc32Byte, hbyte, ← iterate_crc32Shift_xor, Nat.xor_assoc, mod_xor_mul_div]
    have hdiv : w / 2 ^ (8 * (n + 1)) = w / 2 ^ 8 / 2 ^ (8 * n) := by
      rw [Nat.div_div_eq_div_mul, ← Nat.pow_add, Nat.mul_succ, Nat.add_comm]
    rw [littleEndian, List.foldl_cons, hdiv, ih, hstep, Nat.mul_succ, Function.iterate_add_apply]

theorem exists_foldl_crc32Byte {c d : Nat} (hc : c < 2 ^ 32) (hd : d < 2 ^ 32) :
    ∃ w < 2 ^ 32, (littleEndian 4 w).foldl crc32Byte c = d := by
  have hunshift : ∀ n, crc32Unshift^[n] d < 2 ^ 32 := by
    intro n
    induction n with
    | zero => exact hd
    | succ n ih =>
      rw [Function.iterate_succ_apply']
      exact crc32Unshift_lt ih
  have hinv : crc32Shift^[32] (crc32Unshift^[32] d) = d :=
    Function.LeftInverse.iterate crc32Shift_crc32Unshift 32 d
  refine ⟨c ^^^ crc32Unshift^[32] d, Nat.xor_lt_two_pow hc (hunshift 32), ?_⟩
  have hword := foldl_littleEndian 4 c (c ^^^ crc32Unshift^[32] d)
  rw [Nat.div_eq_of_lt (Nat.xor_lt_two_pow hc (hunshift 32)), Nat.xor_zero, ← Nat.xor_assoc,
    Nat.xor_self, Nat.zero_xor, hinv] at hword
  exact hword

end Go
