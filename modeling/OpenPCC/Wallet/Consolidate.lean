import OpenPCC.Go.Error
import OpenPCC.Lib.Delivery
import OpenPCC.Wallet.Rep

/-!
# Consolidation of credits into accounts

`CreateIntents` of the consolidation steps makes an intent for everything that is to be consolidated
(bank batches, payment results, accounts with a low balance): to transfer it into the current
account, until the balance that the account is going to have reaches the target; then the account is
changed. `DedupeAccounts` collects the transfers of each account and sends the account to the output
when they are complete. (When its input is closed it also sends the accounts that are left, which is
not part of the model.)

An account is the number of the call of `AccountFunc` that created it; a call may fail.
-/

namespace Wallet

open Go

variable {σ : Type}

/-- An intent of `CreateIntents`; it is a full withdrawal. -/
structure ConsolidateIntent (σ : Type) where
  source : σ
  target : Rep Nat
  deriving DecidableEq

namespace Consolidate

variable (balance : σ → Int) (accountFunc : Nat → Option Err) (targetBalance : Int)

def errAccount (e : Err) : Err := .errorf "failed to create empty bank account: %w" [] e

/-- The loop of `CreateIntents` with the current account. -/
def createLoop (acc : Nat) (virtualBalance lastGroupIndex : Int) :
    List σ → List (ConsolidateIntent σ) × Option Err
  | [] => ([], none)
  | val :: vals =>
    let virtualBalance := int64 (virtualBalance + balance val)
    let index := lastGroupIndex + 1
    let lastDupe : Bool := max 1 targetBalance ≤ virtualBalance
    let intent := ⟨val, ⟨acc, index, lastDupe⟩⟩
    if lastDupe then
      match accountFunc (acc + 1) with
      | some e => ([intent], some (errAccount e))
      | none =>
        let (intents, err) := createLoop (acc + 1) 0 0 vals
        (intent :: intents, err)
    else
      let (intents, err) := createLoop acc virtualBalance lastGroupIndex vals
      (intent :: intents, err)

/-- The intents for the values that `CreateIntents` receives, and the error that ends it. -/
def createIntents (vals : List σ) : List (ConsolidateIntent σ) × Option Err :=
  match accountFunc 0 with
  | some e => ([], some (errAccount e))
  | none => createLoop balance accountFunc targetBalance 0 0 0 vals

/-- `DedupeAccounts` while its input is open: for every transfer, the account it sends. -/
def dedupeAccounts (results : AList fun _ : Nat => RepResults) : List (Rep Nat) → List (Option Nat)
  | [] => []
  | rep :: reps =>
    let (results, complete) := collect results rep
    (if complete then some rep.key else none) :: dedupeAccounts results reps

/-! ## Handing over the accounts -/

/-- The intents for an account, by their numbers. -/
def group (intents : List (ConsolidateIntent σ)) (acc : Nat) : List Nat :=
  (List.range intents.length).filter fun j => (intents[j]?.map (·.target.key)) = some acc

/-- One of the intents for the account is marked as the last one. -/
def IsClosed (intents : List (ConsolidateIntent σ)) (acc : Nat) : Prop :=
  ∃ intent ∈ intents, intent.target.key = acc ∧ intent.target.last = true

instance (intents : List (ConsolidateIntent σ)) (acc : Nat) : Decidable (IsClosed intents acc) :=
  inferInstanceAs (Decidable (∃ intent ∈ intents, _))

/-- The order in which transfers are completed: each at most once. -/
def IsOrder (intents : List (ConsolidateIntent σ)) (order : List Nat) : Prop :=
  order.Nodup ∧ ∀ j ∈ order, j < intents.length

/-- The transfers reach `DedupeAccounts` in the given order. -/
def sent (intents : List (ConsolidateIntent σ)) (order : List Nat) : List (Option Nat) :=
  dedupeAccounts ∅ (order.filterMap fun j => intents[j]?.map (·.target))

/-- An account is sent with the transfer that completes its group, and never otherwise. -/
def HandedOver (intents : List (ConsolidateIntent σ)) (order : List Nat) : Prop :=
  ∀ (i j : Nat) (intent : ConsolidateIntent σ), order[i]? = some j → intents[j]? = some intent →
    (sent intents order)[i]? = some (if IsClosed intents intent.target.key ∧
      Delivery.Completes (group intents intent.target.key) (order.take i) j
        then some intent.target.key else none)

end Consolidate

end Wallet
