import OpenPCC.Go.Error

/-!
# Currency values (`anonpay/currency/value.go`)

A value is a 9-bit number, a 5-bit exponent over a 4-bit mantissa, and the shift bit that marks a
special value. The amounts of regular values lie between 0 and `maxAmount`
(`Value.amount_bounds`).
-/

namespace Anonpay

open Go

/-- `MaxAmount`: `0b1_1111 << (31 + 3 - 4)`. -/
def maxAmount : Int := 33285996544

/-- `currency.Value`. -/
structure Value where
  shift : Bool
  value : Nat
  /-- The top 7 bits of the 16 are zero. -/
  top : value < 512
  deriving DecidableEq, Repr

/-- The regular value with the low 9 bits of `n`. -/
def Value.ofNat (n : Nat) : Value := ⟨false, n % 512, Nat.mod_lt n (Nat.succ_pos 511)⟩

/-- `Value.Amount`. -/
def Value.amount (c : Value) : Except Err Int :=
  if c.shift then .error (.var .notAnAmount)
  else
    let biasedExponent := c.value >>> 4
    if biasedExponent = 0 then .ok c.value
    else
      let mantissa := (c.value &&& 0xF) ||| 0x10
      let exponentShift := biasedExponent - 1
      .ok (int64 ((mantissa <<< exponentShift : Nat) : Int))

/-- `Value.AmountOrZero`. -/
def Value.amountOrZero (c : Value) : Int :=
  match c.amount with
  | .ok a => a
  | .error _ => 0

/-- `Value.BlindBytes`. -/
def Value.blindBytes (c : Value) : Bytes :=
  let topBit := (c.value &&& 0x100) >>> 8
  let shiftBit := if c.shift then 1 else 0
  let firstByte := (topBit <<< 1) ||| shiftBit
  [UInt8.ofNat firstByte, UInt8.ofNat (c.value &&& 0xFF)]

theorem parsed_lt (b : UInt8) (hi : Bool) :
    (if hi then b.toNat ||| 0x100 else b.toNat) < 512 := by
  have hb := b.toNat_lt
  split
  · exact Nat.or_lt_two_pow (n := 9) (by omega) (by omega)
  · omega

/-- `ParseCurrencyFromBlindBytes`. The shift bit is read only from a first byte of exactly 1. -/
def parseCurrencyFromBlindBytes : Bytes → Except Err Value
  | b0 :: b1 :: _ =>
    if b0.toNat > 3 then .error (.var .tooManyBitsSet)
    else .ok ⟨b0.toNat == 1, _, parsed_lt b1 (b0.toNat &&& 2 == 2)⟩
  | _ => .error (.var .tooShort)

/-- The third-party decoders of a value's text form: base64 and the `Currency` message, whose
`currency` field may be missing. -/
structure TextCodec where
  decodeString : Bytes → Except Err Bytes
  unmarshal : Bytes → Except Err (Option Bytes)

/-- `Value.UnmarshalText`. -/
def unmarshalText (codec : TextCodec) (p : Bytes) : Except Err Value :=
  match codec.decodeString p with
  | .error e => .error e
  | .ok b =>
    match codec.unmarshal b with
    | .error e => .error e
    | .ok none => .error (.new "missing currency" [])
    | .ok (some currency) => parseCurrencyFromBlindBytes currency

/-! ## Amounts -/

theorem mantissa_shift_le {v : Nat} (h : v < 512) :
    (((((v &&& 0xF) ||| 0x10) <<< (v >>> 4 - 1) : Nat)) : Int) ≤ maxAmount := by
  have hm : (v &&& 0xF) ||| 0x10 ≤ 31 := by
    have h1 : v &&& 0xF < 2 ^ 5 := Nat.lt_of_le_of_lt Nat.and_le_right (by decide)
    have := Nat.or_lt_two_pow h1 (show 0x10 < 2 ^ 5 by decide)
    omega
  have he : v >>> 4 ≤ 31 := by
    rw [Nat.shiftRight_eq_div_pow]
    omega
  rw [Nat.shiftLeft_eq]
  have hpow : 2 ^ (v >>> 4 - 1) ≤ 2 ^ 30 := Nat.pow_le_pow_right (by decide) (by omega)
  have hle : ((v &&& 0xF) ||| 0x10) * 2 ^ (v >>> 4 - 1) ≤ 31 * 2 ^ 30 := Nat.mul_le_mul hm hpow
  have hmax : ((31 * 2 ^ 30 : Nat) : Int) = maxAmount := by decide
  rw [← hmax]
  exact_mod_cast hle

theorem Value.amount_bounds {c : Value} {a : Int} (h : c.amount = .ok a) :
    0 ≤ a ∧ a ≤ maxAmount := by
  unfold Value.amount at h
  split at h
  · cases h
  · simp only at h
    split at h
    · cases h
      have := c.top
      unfold maxAmount
      omega
    · have h0 := Int.natCast_nonneg (((c.value &&& 0xF) ||| 0x10) <<< (c.value >>> 4 - 1))
      have hle := mantissa_shift_le c.top
      have hmax : maxAmount ≤ maxInt64 := by decide
      simp only [Except.ok.injEq] at h
      rw [int64_eq h0 (Int.le_trans hle hmax)] at h
      exact h ▸ ⟨h0, hle⟩

theorem Value.amountOrZero_eq {c : Value} {a : Int} (h : c.amount = .ok a) :
    c.amountOrZero = a := by
  simp [Value.amountOrZero, h]

theorem Value.amountOrZero_bounds (c : Value) :
    0 ≤ c.amountOrZero ∧ c.amountOrZero ≤ maxAmount := by
  cases h : c.amount with
  | ok a => rw [Value.amountOrZero_eq h]; exact Value.amount_bounds h
  | error e =>
    have h0 : c.amountOrZero = 0 := by simp [Value.amountOrZero, h]
    rw [h0]
    decide

end Anonpay
