import OpenPCC.Lib.Trace
import OpenPCC.Wallet.Process
import OpenPCC.Wallet.Stats

/-!
# The transfers of the wallet pipeline

`Holdings` are the accounts and credit stacks of a wallet, with the bank and the counters. A step is
one successful transfer of a section of the pipeline (`provide_accounts.go`,
`prefetch_withdraw.go`, `consolidate.go`, `return_to_source.go`) with its `StatsFunc`, or a payment
result that is enqueued (`payment.complete`). Between them accounts are created, and other clients
use the bank. The order of the steps and the ends of the transfers are arbitrary.
-/

namespace Wallet

open Go Anonpay

variable {B : Type}

structure Holdings (B : Type) where
  bank : B
  accounts : List Account := []
  batches : List CreditStack := []
  /-- the payment requests that received a credit -/
  requests : List PaymentRequest := []
  /-- the payment results that were enqueued -/
  results : List PaymentResult := []
  stats : WalletStats := {}

namespace Holdings

/-- The amounts of `WalletSteps`. -/
structure Config where
  sourceAmount : Value
  prefetchAmount : Value

variable (bb : BlindBank B) (balanceOf : B → Bytes → Int) (cfg : Config) (s : Holdings B)

/-! ## The ends of the transfers -/

def accountWithdrawable (env : WithdrawEnv) (i : Nat) : Withdrawable (Holdings B) where
  origin := .blindbank
  withdraw transferID w s := do
    let acc ← s.accounts[i]?
    let (r, acc, bank) := acc.withdraw bb transferID env w s.bank
    return (r, { s with accounts := s.accounts.set i acc, bank })

def accountDepositable (i : Nat) : Depositable (Holdings B) where
  allowedOrigins := [.source, .blindbank, .user]
  deposit transferID credits s :=
    match s.accounts[i]? with
    | none => (some (.new "no such account" []), s)
    | some acc =>
      let (err, acc, bank) := acc.deposit bb transferID credits s.bank
      (err, { s with accounts := s.accounts.set i acc, bank })

def bankBatchWithdrawable (i : Nat) : Withdrawable (Holdings B) where
  origin := .blindbank
  withdraw _ w s := do
    let batch ← s.batches[i]?
    match ← batch.withdraw w with
    | .error e => return (.error e, s)
    | .ok (credits, roundingGain, batch) =>
      return (.ok (credits, roundingGain), { s with batches := s.batches.set i batch })

/-- A new bank batch. -/
def bankBatchDepositable : Depositable (Holdings B) where
  allowedOrigins := [.blindbank]
  deposit transferID credits s :=
    match CreditStack.emptyBankBatch.deposit transferID credits with
    | .error e => (some e, s)
    | .ok batch => (none, { s with batches := s.batches ++ [batch] })

/-- A new payment request. -/
def paymentRequestDepositable (desiredAmount : Value) : Depositable (Holdings B) where
  allowedOrigins := [.blindbank]
  deposit transferID credits s :=
    match (newPaymentRequest desiredAmount).deposit transferID credits with
    | (⟨_, some e⟩, _) => (some e, s)
    | (⟨_, none⟩, req) => (none, { s with requests := s.requests ++ [req] })

def paymentResultWithdrawable (draw : Draw) (i : Nat) : Withdrawable (Holdings B) where
  origin := .blindbank
  withdraw id w s := do
    let result ← s.results[i]?
    let (r, result, bank) := result.withdraw bb draw id w s.bank
    return (r, { s with results := s.results.set i result, bank })

/-! ## Steps -/

/-- What can be consolidated into an account. -/
inductive Consolidatable where
  | account (i : Nat)
  | bankBatch (i : Nat)
  | paymentResult (i : Nat)
  deriving DecidableEq

def Consolidatable.withdrawable (env : WithdrawEnv) : Consolidatable → Withdrawable (Holdings B)
  | account i => accountWithdrawable bb env i
  | bankBatch i => bankBatchWithdrawable i
  | paymentResult i => paymentResultWithdrawable bb (env.draw 0) i

/-- The `StatsFunc` of the consolidation. -/
def Consolidatable.count (tsfr : Transfer) (c : ConsolidateStats) :
    Consolidatable → ConsolidateStats
  | account _ => { c with fromAccounts := c.fromAccounts.count tsfr.roundingGain tsfr.amounts }
  | bankBatch _ =>
    { c with fromBankBatches := c.fromBankBatches.count tsfr.roundingGain tsfr.amounts }
  | paymentResult _ =>
    { c with fromPaymentResults := c.fromPaymentResults.count tsfr.roundingGain tsfr.amounts }

inductive Act (B : Type) where
  | newAccount (token : Bytes)
  | otherClients (bank : B)
  | provideAccount (env : ProcessEnv) (svc : SourceService) (i : Nat)
  | splitAccount (env : ProcessEnv) (wenv : WithdrawEnv) (i : Nat)
  | paymentRequest (env : ProcessEnv) (i : Nat) (desiredAmount : Value)
  | consolidate (env : ProcessEnv) (wenv : WithdrawEnv) (src : Consolidatable) (i : Nat)
  | accountToSource (env : ProcessEnv) (wenv : WithdrawEnv) (svc : SourceService) (i : Nat)
  | bankBatchToSource (env : ProcessEnv) (svc : SourceService) (i : Nat)
  | paymentResult (unspend : AnyCredit)

/-- A successful transfer, which `count` counts. -/
def transfer (env : ProcessEnv) (intent : Intent (Holdings B))
    (count : Transfer → WalletStats → WalletStats) : Option (Holdings B) :=
  match process env intent s with
  | some (.ok tsfr, s) => some { s with stats := count tsfr s.stats }
  | _ => none

/-- A token of a new account was not used before. Other clients do not touch the accounts of the
wallet. The division of a split panics if the prefetch amount is zero. -/
def step : Act B → Option (Holdings B)
  | .newAccount token =>
    if token ∉ s.accounts.map (·.token) ∧ balanceOf s.bank token = 0 then
      some { s with accounts := s.accounts ++ [emptyBankAccount token] }
    else none
  | .otherClients bank =>
    if ∀ acc ∈ s.accounts, balanceOf bank acc.token = balanceOf s.bank acc.token then
      some { s with bank }
    else none
  | .provideAccount env svc i =>
    s.transfer env
      { withdrawal := { credits := 1, amount := cfg.sourceAmount, optimistic := true }
        src := sourceWithdrawable svc
        dst := accountDepositable bb i }
      fun tsfr stats => { stats with
        provideAccount.sourceTransfers :=
          stats.provideAccount.sourceTransfers.count tsfr.roundingGain tsfr.amounts }
  | .splitAccount env wenv i => do
    let acc ← s.accounts[i]?
    if cfg.prefetchAmount.amountOrZero = 0 then none
    else
      s.transfer env
        { withdrawal :=
            { credits := acc.balance.tdiv cfg.prefetchAmount.amountOrZero
              amount := cfg.prefetchAmount }
          src := accountWithdrawable bb wenv i
          dst := bankBatchDepositable }
        fun tsfr stats => { stats with
          prefetchWithdraw.splitAccounts :=
            stats.prefetchWithdraw.splitAccounts.count tsfr.roundingGain tsfr.amounts }
  | .paymentRequest env i desiredAmount =>
    s.transfer env
      { withdrawal := { credits := 1, amount := desiredAmount }
        src := bankBatchWithdrawable i
        dst := paymentRequestDepositable desiredAmount }
      fun tsfr stats => { stats with
        prefetchWithdraw.paymentRequests :=
          stats.prefetchWithdraw.paymentRequests.count tsfr.roundingGain tsfr.amounts }
  | .consolidate env wenv src i =>
    s.transfer env
      { withdrawal := fullWithdrawal
        src := src.withdrawable bb wenv
        dst := accountDepositable bb i }
      fun tsfr stats => { stats with consolidate := src.count tsfr stats.consolidate }
  | .accountToSource env wenv svc i =>
    s.transfer env
      { withdrawal := fullWithdrawal
        src := accountWithdrawable bb wenv i
        dst := sourceDepositable svc }
      fun tsfr stats => { stats with
        returnToSource.fromAccounts :=
          stats.returnToSource.fromAccounts.count tsfr.roundingGain tsfr.amounts }
  | .bankBatchToSource env svc i =>
    s.transfer env
      { withdrawal := fullWithdrawal, src := bankBatchWithdrawable i, dst := sourceDepositable svc }
      fun tsfr stats => { stats with
        returnToSource.fromBankBatches :=
          stats.returnToSource.fromBankBatches.count tsfr.roundingGain tsfr.amounts }
  | .paymentResult unspend =>
    match newPaymentResult unspend with
    | .error _ => none
    | .ok result =>
      some { s with
        results := s.results ++ [result]
        stats.paymentResults := s.stats.paymentResults.count 0 [unspend.value] }

def Enabled (a : Act B) : Prop := (s.step bb balanceOf cfg a).isSome

instance (a : Act B) : Decidable (s.Enabled bb balanceOf cfg a) :=
  inferInstanceAs (Decidable (_ = true))

def next (a : Act B) : Holdings B := (s.step bb balanceOf cfg a).getD s

/-! ## What the wallet holds -/

/-- The credits in the bank batches. -/
def batchCredits : Int := (s.batches.map fun batch => (batch.numCredits : Int)).sum

/-- The amount of the credits handed to payments. -/
def paid : Int := (s.requests.map fun r => BlindBank.totalAmount r.stack.credits).sum

/-- The amount of the payment results. -/
def returned : Int := (s.results.map (·.unspend.value.amountOrZero)).sum

/-- The status is the balance sheet of what the wallet holds, in `int64` arithmetic. -/
def BalanceSheet : Prop :=
  let status := s.stats.calcWalletStatus
  status.amountInAccounts = int64 (s.accounts.map (·.balance)).sum ∧
    status.bankBatchCreditCount =
      ⟨int64 (s.batches.map (·.balance)).sum, int64 s.batchCredits⟩ ∧
    status.spendCreditCount.amount = int64 (s.paid - s.returned)

end Holdings

end Wallet
