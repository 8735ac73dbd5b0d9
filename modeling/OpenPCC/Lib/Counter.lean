import Mathlib.Tactic.Ring
import OpenPCC.Lib.Bytes

/-!
# Counters of a fixed number of bytes

`encode n s` are the lowest `n` bytes of `s`, the highest one first, and `value` reads a byte string
as a number. They are inverse to each other (`value_encode`, `encode_value`), so that a counter of
`n` bytes can be reasoned about as a number below `256 ^ n`. Masking a counter with a fixed byte
string keeps distinct counters distinct (`xorBytes_right_inj`).
-/

namespace BigEndian

def encode : Nat → Nat → Bytes
  | 0, _ => []
  | n + 1, s => UInt8.ofNat (s / 256 ^ n) :: encode n s

def value : Bytes → Nat
  | [] => 0
  | x :: b => x.toNat * 256 ^ b.length + value b

theorem length_encode (n s : Nat) : (encode n s).length = n := by
  induction n with
  | zero => rfl
  | succ n ih => rw [encode, List.length_cons, ih]

theorem value_lt (b : Bytes) : value b < 256 ^ b.length := by
  induction b with
  | nil => exact Nat.one_pos
  | cons x b ih =>
    have hx := x.toNat_lt
    calc x.toNat * 256 ^ b.length + value b
        < x.toNat * 256 ^ b.length + 256 ^ b.length := Nat.add_lt_add_left ih _
      _ = (x.toNat + 1) * 256 ^ b.length := by ring
      _ ≤ 256 * 256 ^ b.length := Nat.mul_le_mul_right _ hx
      _ = 256 ^ (x :: b).length := by rw [List.length_cons, Nat.pow_succ, Nat.mul_comm]

theorem value_encode (n s : Nat) : value (encode n s) = s % 256 ^ n := by
  induction n with
  | zero => simp [encode, value, Nat.mod_one]
  | succ n ih =>
    rw [encode, value, length_encode, ih, Nat.pow_succ, Nat.mod_mul, Nat.mul_comm, Nat.add_comm]
    rfl

theorem value_inj {b b' : Bytes} (hlen : b.length = b'.length) (h : value b = value b') :
    b = b' := by
  induction b generalizing b' with
  | nil => exact (List.length_eq_zero_iff.1 hlen.symm).symm
  | cons x b ih =>
    cases b' with
    | nil => cases hlen
    | cons y b' =>
      have hlen : b.length = b'.length := Nat.succ.inj hlen
      have hb := value_lt b
      have hb' := value_lt b'
      rw [value, value, hlen] at h
      rw [hlen] at hb
      -- the first bytes are the quotients, the rests the remainders
      have hxy : x.toNat = y.toNat := by
        have hdiv := congrArg (· / 256 ^ b'.length) h
        simpa [Nat.mul_comm _ (256 ^ b'.length), Nat.mul_add_div, Nat.div_eq_of_lt hb,
          Nat.div_eq_of_lt hb'] using hdiv
      have hrest : value b = value b' := by
        rw [hxy] at h
        exact Nat.add_left_cancel h
      rw [UInt8.toNat_inj.1 hxy, ih hlen hrest]

theorem encode_value (b : Bytes) : encode b.length (value b) = b := by
  refine value_inj (length_encode _ _) ?_
  rw [value_encode, Nat.mod_eq_of_lt (value_lt b)]

theorem encode_inj {n s s' : Nat} (hs : s < 256 ^ n) (hs' : s' < 256 ^ n)
    (h : encode n s = encode n s') : s = s' := by
  have hvalue := congrArg value h
  rwa [value_encode, value_encode, Nat.mod_eq_of_lt hs, Nat.mod_eq_of_lt hs'] at hvalue

theorem encode_zero (n : Nat) : encode n 0 = List.replicate n 0 := by
  induction n with
  | zero => rfl
  | succ n ih =>
    rw [encode, ih, Nat.zero_div]
    rfl

theorem value_replicate (n : Nat) : value (List.replicate n 255) + 1 = 256 ^ n := by
  induction n with
  | zero => rfl
  | succ n ih =>
    rw [List.replicate_succ, value, List.length_replicate, Nat.add_assoc, ih, Nat.pow_succ]
    show 255 * 256 ^ n + 256 ^ n = _
    ring

end BigEndian

/-! ## Masks -/

/-- Byte by byte. -/
def xorBytes (a b : Bytes) : Bytes := List.zipWith (· ^^^ ·) a b

theorem length_xorBytes {a b : Bytes} (h : b.length = a.length) :
    (xorBytes a b).length = a.length := by
  rw [xorBytes, List.length_zipWith, h, Nat.min_self]

theorem xorBytes_right_inj {a b b' : Bytes} (hb : b.length = a.length) (hb' : b'.length = a.length)
    (h : xorBytes a b = xorBytes a b') : b = b' := by
  induction a generalizing b b' with
  | nil => rw [List.length_eq_zero_iff.1 hb, List.length_eq_zero_iff.1 hb']
  | cons x a ih =>
    cases b with
    | nil => cases hb
    | cons y b =>
      cases b' with
      | nil => cases hb'
      | cons y' b' =>
        obtain ⟨hhead, htail⟩ := List.cons.inj h
        have hy : y = y' := by
          have hcancel := congrArg (x ^^^ ·) hhead
          simpa [← UInt8.xor_assoc] using hcancel
        rw [hy, ih (Nat.succ.inj hb) (Nat.succ.inj hb') htail]
