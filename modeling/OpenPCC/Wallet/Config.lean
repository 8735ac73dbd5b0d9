import OpenPCC.Anonpay.Exact
import OpenPCC.Wallet.Holdings
import OpenPCC.Wallet.Payment

/-!
# Amounts of a wallet (`anonpay/wallet/wallet.go`)

`newWallet` checks the amounts of a configuration and gives the pipeline its values. `roundAmount`
is the value of a payment, which `BeginPayment` compares with the prefetch amount.

The other fields of a `Config` are durations and numbers of workers, which are replaced by a default
if they are not positive and never refused.
-/

namespace Wallet

open Go Anonpay

/-- The amounts of a `wallet.Config`. -/
structure Config where
  sourceAmount : Int
  prefetchAmount : Int
  deriving DecidableEq

deriving instance DecidableEq for Holdings.Config

/-- `New`, up to the values of the pipeline. The last error has the source amount in its text. -/
def newWallet (cfg : Config) : Except Err Holdings.Config :=
  if cfg.sourceAmount ≤ 0 ∨ cfg.prefetchAmount ≤ 0 then
    .error (.new "invalid amounts: %d %d" [.int cfg.sourceAmount, .int cfg.prefetchAmount])
  else if cfg.sourceAmount < cfg.prefetchAmount then
    .error (.new "prefetch amount %d must be equal to or greater than source amount %d"
      [.int cfg.prefetchAmount, .int cfg.sourceAmount])
  else
    match exact cfg.sourceAmount with
    | .error e => .error (.errorf "source amount %d currency error: %w" [.int cfg.sourceAmount] e)
    | .ok sourceVal =>
      match exact cfg.prefetchAmount with
      | .error e =>
        .error (.errorf "prefetch amount %d currency error: %w" [.int cfg.sourceAmount] e)
      | .ok prefetchVal => .ok ⟨sourceVal, prefetchVal⟩

/-- The value of a payment: the amount is rounded up. -/
def roundAmount (amount : Int) : Except Err Value := rounded (float64 amount) 1

/-- The id is generated, and the context is not cancelled in a delay. -/
def ProcessEnv.Quiet (env : ProcessEnv) : Prop :=
  (∃ id, env.id = .ok id) ∧ env.delayBefore = none ∧ env.delayBetween = none

/-- The transfer from the batch `i` to the payment request succeeds, and the payment receives a
credit that is worth `amount`. -/
def Holdings.Serves {B : Type} (bb : BlindBank B) (balanceOf : B → Bytes → Int)
    (cfg : Holdings.Config) (s : Holdings B) (env : ProcessEnv) (i : Nat) (req : PaymentRequest)
    (amount : Int) : Prop :=
  ∃ s' req' credit, s.step bb balanceOf cfg (.paymentRequest env i req.desiredAmount) = some s' ∧
    s'.requests = s.requests ++ [req'] ∧ req'.stack.credits = [credit] ∧
    amount ≤ credit.value.amountOrZero

theorem newWallet_eq_ok {cfg : Config} {c : Holdings.Config} (h : newWallet cfg = .ok c) :
    0 < cfg.prefetchAmount ∧ cfg.prefetchAmount ≤ cfg.sourceAmount ∧
      exact cfg.sourceAmount = .ok c.sourceAmount ∧
      exact cfg.prefetchAmount = .ok c.prefetchAmount := by
  unfold newWallet at h
  split at h
  · cases h
  · next hpos =>
    split at h
    · cases h
    · next hle =>
      split at h
      · cases h
      · next sourceVal hsource =>
        split at h
        · cases h
        · next prefetchVal hprefetch =>
          cases h
          exact ⟨by omega, by omega, hsource, hprefetch⟩

end Wallet
