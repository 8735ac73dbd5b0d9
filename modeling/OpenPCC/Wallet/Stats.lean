import OpenPCC.Anonpay.Currency

/-!
# Counters of the wallet (`anonpay/wallet/internal/stats/counter.go`, `pipeline/wallet.go`)

Every section of the pipeline counts its successful transfers. `calcWalletStatus` combines the nine
counters into what is in the accounts, in the bank batches and with payments.
-/

namespace Wallet

open Go Anonpay

/-- A reading of a `TransferCounter`. -/
structure TransferCount where
  count : Int := 0
  /-- with the rounding gain -/
  amount : Int := 0
  credits : Int := 0
  roundingGain : Int := 0
  deriving DecidableEq

def TransferCount.amountNoRounding (c : TransferCount) : Int := int64 (c.amount - c.roundingGain)

structure CreditCount where
  amount : Int
  credits : Int
  deriving DecidableEq

def creditCountBetween (produced : TransferCount) (consumed : List TransferCount) : CreditCount :=
  consumed.foldl
    (fun ac c => ⟨int64 (ac.amount - c.amountNoRounding), int64 (ac.credits - c.credits)⟩)
    ⟨produced.amount, produced.credits⟩

def sumTransferCounts (ccs : List TransferCount) : TransferCount :=
  ccs.foldl
    (fun out cc => ⟨int64 (out.count + cc.count), int64 (out.amount + cc.amount),
      int64 (out.credits + cc.credits), int64 (out.roundingGain + cc.roundingGain)⟩)
    {}

def sumAmounts (amounts : List Value) : Int :=
  amounts.foldl (fun sum amount => int64 (sum + amount.amountOrZero)) 0

structure TransferCounter where
  c : TransferCount := {}
  deriving DecidableEq

namespace TransferCounter

variable (tc : TransferCounter)

def read : TransferCount := tc.c

def count (roundingGain : Int) (amounts : List Value) : TransferCounter where
  c :=
    { count := int64 (tc.c.count + 1)
      credits := int64 (tc.c.credits + amounts.length)
      amount := int64 (tc.c.amount + sumAmounts amounts)
      roundingGain := int64 (tc.c.roundingGain + roundingGain) }

end TransferCounter

/-! ## The counters of the pipeline -/

structure ProvideAccountStats where
  sourceTransfers : TransferCounter := {}
  deriving DecidableEq

structure PrefetchWithdrawStats where
  splitAccounts : TransferCounter := {}
  paymentRequests : TransferCounter := {}
  deriving DecidableEq

structure ConsolidateStats where
  fromAccounts : TransferCounter := {}
  fromBankBatches : TransferCounter := {}
  fromPaymentResults : TransferCounter := {}
  deriving DecidableEq

structure ReturnToSourceStats where
  fromAccounts : TransferCounter := {}
  fromBankBatches : TransferCounter := {}
  deriving DecidableEq

structure WalletStats where
  provideAccount : ProvideAccountStats := {}
  prefetchWithdraw : PrefetchWithdrawStats := {}
  consolidate : ConsolidateStats := {}
  returnToSource : ReturnToSourceStats := {}
  paymentResults : TransferCounter := {}
  deriving DecidableEq

structure Status where
  bankBatchCreditCount : CreditCount
  spendCreditCount : CreditCount
  amountInAccounts : Int
  deriving DecidableEq

def WalletStats.calcWalletStatus (s : WalletStats) : Status :=
  let sourceToAccounts := s.provideAccount.sourceTransfers.read
  let accountsToSource := s.returnToSource.fromAccounts.read
  let batchesToSource := s.returnToSource.fromBankBatches.read
  let accountsToBatches := s.prefetchWithdraw.splitAccounts.read
  let batchesToConsolidate := s.consolidate.fromBankBatches.read
  let accountsToConsolidate := s.consolidate.fromAccounts.read
  let paymentResultsToConsolidate := s.consolidate.fromPaymentResults.read
  let batchesToPaymentReqs := s.prefetchWithdraw.paymentRequests.read
  let paymentResults := s.paymentResults.read
  let consolidatablesToAccounts := sumTransferCounts
    [batchesToConsolidate, accountsToConsolidate, paymentResultsToConsolidate]
  let allAccounts := sumTransferCounts [sourceToAccounts, consolidatablesToAccounts]
  { bankBatchCreditCount := creditCountBetween accountsToBatches
      [batchesToPaymentReqs, batchesToSource, batchesToConsolidate]
    spendCreditCount := creditCountBetween batchesToPaymentReqs [paymentResults]
    amountInAccounts := (creditCountBetween allAccounts
      [accountsToBatches, accountsToConsolidate, accountsToSource]).amount }

end Wallet
