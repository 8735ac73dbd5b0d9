import OpenPCC.Anonpay.Currency
import OpenPCC.Go.Bits
import OpenPCC.Go.Float64
import OpenPCC.Go.Outcome

/-!
# Values of given amounts (`anonpay/currency/value.go`)

`exact` encodes an amount that has a value, `mustSpecial` sets the shift bit of such a value, and
`rounded` takes one of the two neighbouring values of an amount that has none, by a factor that is
drawn at random. A `float64` argument is finite.
-/

namespace Anonpay

open Go

theorem encoding_lt {biasedExponent mantissa : Nat} (he : ¬ biasedExponent > 31) :
    biasedExponent <<< 4 ||| mantissa &&& 0xF < 512 := by
  have hm : mantissa &&& 0xF < 2 ^ 9 := Nat.lt_of_le_of_lt Nat.and_le_right (by decide)
  have hs : biasedExponent <<< 4 < 2 ^ 9 := by
    rw [Nat.shiftLeft_eq]
    omega
  exact Nat.or_lt_two_pow hs hm

/-- `createExactUnsafe`. -/
def createExactUnsafe (amount : Nat) : Except Err Value :=
  if h : amount < 16 then .ok ⟨false, amount, by omega⟩
  else
    let bitsNeeded : Int := len64 amount
    let zeros : Int := trailingZeros64 amount
    if bitsNeeded - zeros > 5 then .error (.var .noExactRepresentation)
    else
      let mantissa := amount >>> (bitsNeeded - 5).toNat
      if bitsNeeded < 4 then
        .error (.new "calculation results in negative bitsNeeded: %d" [.int bitsNeeded])
      else
        let biasedExponent := (bitsNeeded - 4).toNat
        if he : biasedExponent > 31 then
          .error (.errorf "%w, got %d" [.int amount] (.var .overflow))
        else .ok ⟨false, biasedExponent <<< 4 ||| mantissa &&& 0xF, encoding_lt he⟩

/-- `Exact`. -/
def exact (signedAmount : Int) : Except Err Value :=
  if signedAmount < 0 then .error (.var .negativeUnrepresentable)
  else
    let amount := signedAmount.toNat
    if amount > maxAmount then .error (.errorf "%w, got %d" [.int amount] (.var .overflow))
    else createExactUnsafe amount

/-- `CanRepresent`. -/
def canRepresent (signedAmount : Int) : Bool :=
  match exact signedAmount with
  | .ok _ => true
  | .error _ => false

/-- `MustSpecial`. -/
def mustSpecial (signedAmount : Int) : Outcome Value :=
  match exact signedAmount with
  | .error _ => .panic
  | .ok c => .ok { c with shift := true }

/-- The end of `Rounded`: the choice between the bounds. -/
def chooseBound (signedAmount roundingFactor : Rat) (lowerBound upperBound : Nat) :
    Except Err Value :=
  let width := float64 (float64 upperBound - float64 lowerBound)
  let lowerProbability := float64 (float64 (float64 upperBound - signedAmount) / width)
  if roundingFactor > lowerProbability then createExactUnsafe upperBound
  else createExactUnsafe lowerBound

/-- `Rounded`. -/
def rounded (signedAmount roundingFactor : Rat) : Except Err Value :=
  if signedAmount < 0 then .error (.var .negativeUnrepresentable)
  else
    let lowerBound := ⌊signedAmount⌋.toNat
    let upperBound := ⌈signedAmount⌉.toNat
    let isInteger := lowerBound = upperBound
    if upperBound > maxAmount then .error (.errorf "%w, got %d" [.int upperBound] (.var .overflow))
    else if upperBound ≤ 32 then
      if isInteger then createExactUnsafe upperBound
      else chooseBound signedAmount roundingFactor lowerBound upperBound
    else
      let amount := lowerBound
      let bitsNeeded := len64 amount
      if bitsNeeded < 5 then
        .error (.new "calculation results in negative bitsNeeded: %d" [.int bitsNeeded])
      else
        let shiftToClear := bitsNeeded - 5
        let truncatedAmount := amount >>> shiftToClear
        let lowerBound := truncatedAmount <<< shiftToClear
        let upperBound := (truncatedAmount + 1) <<< shiftToClear
        if isInteger ∧ lowerBound = amount then createExactUnsafe amount
        else chooseBound signedAmount roundingFactor lowerBound upperBound

end Anonpay
