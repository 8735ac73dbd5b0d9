import OpenPCC.Wallet.Config

/-!
# From accounts to bank batches (`provide_accounts.go`, `prefetch_withdraw.go`)

`RouteAccounts` sends an account with at least the source amount to the withdrawals.
`FilterLowAccounts` takes out accounts that do not have the prefetch amount, and
`SplitAccountTransfer` withdraws as many credits of the prefetch amount as the balance has, in one
batch. A bank takes at most `maxBatchLen` requests at a time.

An account has got its balance by deposits: of a credit from the source, or of all that was
consolidated into it (`Filled`).
-/

namespace Wallet

open Go Anonpay

variable {B : Type} (cfg : Holdings.Config)

/-- `banking.MaxBatchLen`. -/
def maxBatchLen : Int := 15

inductive AccountRoute where
  | source | withdraw
  deriving DecidableEq

/-- Where `RouteAccounts` sends the account; `closed` after the signal to close. -/
def routeAccount (closed : Bool) (acc : Account) : AccountRoute :=
  if closed ∨ acc.balance < cfg.sourceAmount.amountOrZero then .source else .withdraw

/-- `FilterLowAccounts` sends the account back to the consolidation. -/
def isLowAccount (acc : Account) : Bool := acc.balance < cfg.prefetchAmount.amountOrZero

/-- The withdrawal of the `SplitAccountTransfer`; the division panics if the prefetch amount is
zero. -/
def splitWithdrawal (acc : Account) : Option Withdrawal :=
  if cfg.prefetchAmount.amountOrZero = 0 then none
  else some
    { credits := acc.balance.tdiv cfg.prefetchAmount.amountOrZero
      amount := cfg.prefetchAmount }

/-- The account is split into a batch that a bank has to support. -/
def SplitsWithinLimit (acc : Account) : Prop :=
  isLowAccount cfg acc = false ∧
    ∃ w, splitWithdrawal cfg acc = some w ∧ 1 ≤ w.credits ∧ w.credits ≤ maxBatchLen

/-- The bank refuses batches that are too long, as its contract asks for. -/
def LimitsBatches (bank : BlindBankContract B) : Prop :=
  ∀ (transferID account : Bytes) (reqs : List BlindSignRequest) (b : B),
    maxBatchLen < reqs.length →
      ∃ e b', bank.withdrawBatch transferID account reqs b = (.error e, b')

/-- The account is new, or has received credits in a deposit; between the deposits other clients use
the bank. `credits` are all that it received. -/
inductive Filled (bb : BlindBank B) (balanceOf : B → Bytes → Int) :
    (credits : List BlindedCredit) → Owned B → Prop
  | empty {token : Bytes} {bank : B} : balanceOf bank token = 0 →
      Filled bb balanceOf [] ⟨emptyBankAccount token, bank⟩
  | otherClients {credits : List BlindedCredit} {s : Owned B} {bank : B} :
      Filled bb balanceOf credits s →
      balanceOf bank s.account.token = balanceOf s.bank s.account.token →
      Filled bb balanceOf credits { s with bank }
  | deposit {credits more : List BlindedCredit} {s : Owned B} {transferID : Bytes}
      {account : Account} {bank : B} :
      Filled bb balanceOf credits s →
      s.account.deposit bb transferID more s.bank = (none, account, bank) →
      Filled bb balanceOf (credits ++ more) ⟨account, bank⟩

end Wallet
