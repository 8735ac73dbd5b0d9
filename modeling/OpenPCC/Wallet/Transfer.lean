import OpenPCC.Anonpay.Credit

/-!
# Withdrawals and credit stacks

A credit stack holds credits of one amount in memory: bank batches are credit stacks, and a payment
request has one for its credit. It receives a single deposit, and credits are taken from it until it
is empty. `withdraw` would panic on a negative number of credits, which is the result `none`.
-/

namespace Wallet

open Go Anonpay

/-- The zero `currency.Value`. -/
def zeroValue : Value := ⟨false, 0, by decide⟩

structure Withdrawal where
  full : Bool := false
  credits : Int := 0
  amount : Value := zeroValue
  optimistic : Bool := false
  deriving DecidableEq

def fullWithdrawal : Withdrawal := { full := true }

/-- The errors of `withdraw`: a `WithdrawalError` of the withdrawal `w` with the error that it
wraps, or another error. -/
inductive WithdrawErr where
  | creditsNotAvailable (w : Withdrawal) (credits : Int) (amount : Value)
  | insufficientBalance (w : Withdrawal) (balance : Int)
  | withdrawal (w : Withdrawal) (err : Err)
  | other (err : Err)
  deriving DecidableEq

structure CreditStack where
  depositTransferID : Bytes := []
  maxCredits : Int
  credits : List BlindedCredit := []
  creditAmount : Value := zeroValue
  deriving DecidableEq

namespace CreditStack

variable (s : CreditStack)

/-- `EmptyBankBatch`. -/
def emptyBankBatch : CreditStack := { maxCredits := 0 }

def numCredits : Nat := s.credits.length

def balance : Int := int64 (s.credits.length * s.creditAmount.amountOrZero)

def canWithdrawNoLock (w : Withdrawal) : Bool :=
  if s.credits.length = 0 then false
  else if w = fullWithdrawal then true
  else if s.creditAmount ≠ w.amount then false
  else if s.credits.length < w.credits then false
  else true

def deposit (transferID : Bytes) (credits : List BlindedCredit) : Except Err CreditStack :=
  if s.depositTransferID.length ≠ 0 then
    .error (.new "credit stack can't receive a second deposit" [])
  else
    match credits with
    | [] => .error (.new "credit stack can't receive empty deposits" [])
    | first :: rest =>
      if s.maxCredits ≠ 0 ∧ s.maxCredits < credits.length then
        .error (.new "received deposit of %d credits, can at maximum contain %d credits"
          [.int credits.length, .int s.maxCredits])
      else
        .ok { s with
          depositTransferID := transferID
          credits := first :: rest
          creditAmount := first.value }

/-- The credits that are withdrawn, the rounding gain and what is left. -/
def withdraw (w : Withdrawal) :
    Option (Except WithdrawErr (List BlindedCredit × Int × CreditStack)) :=
  if s.canWithdrawNoLock w then
    let i : Int := if w = fullWithdrawal then s.credits.length else w.credits
    if i < 0 then none
    else some (.ok (s.credits.take i.toNat, 0, { s with credits := s.credits.drop i.toNat }))
  else some (.error (.creditsNotAvailable w s.credits.length s.creditAmount))

variable {s}

theorem deposit_eq_ok {transferID : Bytes} {credits : List BlindedCredit} {s' : CreditStack}
    (h : s.deposit transferID credits = .ok s') : s'.credits = credits := by
  unfold deposit at h
  split at h
  · cases h
  · split at h
    · cases h
    · split at h
      · cases h
      · cases h
        rfl

theorem withdraw_one {amount : Value} {credits : List BlindedCredit} {gain : Int} {s' : CreditStack}
    (h : s.withdraw { credits := 1, amount } = some (.ok (credits, gain, s'))) :
    ∃ credit, s.credits = credit :: s'.credits ∧ credits = [credit] ∧ gain = 0 := by
  rw [withdraw] at h
  split at h
  · next hcan =>
    have hfull : ({ credits := 1, amount } : Withdrawal) ≠ fullWithdrawal := by
      simp [fullWithdrawal]
    rw [if_neg hfull] at h
    simp only [show ¬ (1 : Int) < 0 by decide, if_false, Option.some.injEq, Except.ok.injEq,
      Prod.mk.injEq] at h
    obtain ⟨rfl, rfl, rfl⟩ := h
    cases hs : s.credits with
    | nil => simp [canWithdrawNoLock, hs] at hcan
    | cons credit rest => exact ⟨credit, rfl, rfl, rfl⟩
  · cases h

end CreditStack

end Wallet
