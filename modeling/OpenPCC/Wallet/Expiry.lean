import OpenPCC.Go.Float64
import OpenPCC.Wallet.Transfer

/-!
# Expiry of credits (`anonpay/nonce.go`, `anonpay/wallet/internal/transfer/local.go`)

A nonce is stamped with the hour in which it is created, or at random with the next one
(`safeNonceTimestamp`). The wallet computes from the stamps how long a stack can be used
(`CreditStack.expiresIn`), the nonce locker whether a nonce is expired (`Nonce.isExpiredAt`).

Stamps are Unix times in seconds and clocks show nanoseconds.
-/

namespace Wallet

open Go Anonpay

def nonceMinimumSafeTimeSeconds : Int := 30

/-- The timestamp is moved to the next period. -/
def Increments (timestamp : Int) (randomFactor : Rat) : Prop :=
  let nonQuantizedSeconds := timestamp - roundDownNonceTimestamp timestamp
  float64 (1 - float64 (float64 nonQuantizedSeconds / float64 nonceTimeQuantizationSeconds)) <
    randomFactor

instance (timestamp : Int) (randomFactor : Rat) : Decidable (Increments timestamp randomFactor) :=
  inferInstanceAs (Decidable (_ < _))

/-- `SafeNonceTimestamp`: the timestamp and whether the increment is unsafe. -/
def safeNonceTimestamp (timestamp : Int) (randomFactor : Rat) : Int × Bool :=
  let roundedTimestamp := roundDownNonceTimestamp timestamp
  let nonQuantizedSeconds := timestamp - roundedTimestamp
  if Increments timestamp randomFactor then
    (roundedTimestamp + nonceTimeQuantizationSeconds,
      decide (nonQuantizedSeconds < nonceMinimumSafeTimeSeconds))
  else (roundedTimestamp, false)

/-! ## Clocks -/

def nanosecond : Int := 1000000000

/-- `t.Unix()` of a clock. -/
def unix (now : Int) : Int := now / nanosecond

/-- `t.Sub(now)`: the difference, or the end of the durations that is nearest to it. -/
def timeSub (t now : Int) : Int := max (-maxInt64 - 1) (min maxInt64 (t - now))

namespace CreditStack

/-- The loop of `ExpiresIn` after the first credit. -/
def lowestFrom (lowest : Int) : List BlindedCredit → Int
  | [] => lowest
  | credit :: credits =>
    lowestFrom (if credit.nonce.timestamp < lowest then credit.nonce.timestamp else lowest) credits

def lowestTimestamp : List BlindedCredit → Int
  | [] => 0
  | credit :: credits => lowestFrom credit.nonce.timestamp credits

/-- `ExpiresIn` at the time `now`. -/
def expiresIn (s : CreditStack) (now : Int) : Int :=
  int64 (timeSub (lowestTimestamp s.credits * nanosecond) now + nanosecond * nonceLifespanSeconds)

end CreditStack

/-! ## What both say of a stack -/

/-- When a nonce is created, and with which factor. -/
structure Creation where
  time : Int
  randomFactor : Rat
  deriving DecidableEq

/-- The stamp of the nonce. -/
def Creation.stamp (c : Creation) : Int :=
  roundDownNonceTimestamp c.time +
    if Increments c.time c.randomFactor then nonceTimeQuantizationSeconds else 0

/-- The credits have nonces that were created so. -/
def Stamped (credits : List BlindedCredit) (creations : List Creation) : Prop :=
  credits.map (fun credit => (credit.nonce.timestamp, credit.nonce.unsafeIncrement)) =
    creations.map fun c => safeNonceTimestamp c.time c.randomFactor

instance (credits : List BlindedCredit) (creations : List Creation) :
    Decidable (Stamped credits creations) :=
  inferInstanceAs (Decidable (_ = _))

/-- A stack that the wallet keeps has no nonce that is expired for the locker. -/
def CreditStack.ExpiryAgrees (s : CreditStack) (now : Int) : Prop :=
  0 < s.expiresIn now → ∀ credit ∈ s.credits, credit.nonce.isExpiredAt (unix now) = false

end Wallet
