import OpenPCC.Anonpay.BankRun

/-!
# The contract of a blind bank (`anonpay/banking/blind_bank_contract.go`)

`BlindBankContract` is the interface of a bank, over the state `B` of an implementation: each call
returns a result or an error and the bank after it. What a call decides by chance is part of `B`.
`Lawful` is what the comments of the interface promise about the balances. Balances are `int64`
values, so what is added and subtracted is reduced to them. The in-memory bank is an implementation
(`InMem.bank`).
-/

namespace Anonpay

open Go

variable {B : Type}

/-- `banking.BlindBankContract`. The first result of a call that returns an error is not used by
its callers and left out. -/
structure BlindBankContract (B : Type) where
  withdrawBatch : (transferID account : Bytes) → List BlindSignRequest → B →
    Except Err (Int × List Bytes) × B
  withdrawFullUnblinded : (transferID account : Bytes) → B → Except Err UnblindedCredit × B
  deposit : (transferID account : Bytes) → BlindedCredit → B → Except Err Int × B
  exchange : (transferID : Bytes) → AnyCredit → BlindSignRequest → B → Except Err Bytes × B
  balance : (account : Bytes) → B → Except Err Int × B

/-- The amount of a batch of requests. -/
def batchAmount (reqs : List BlindSignRequest) : Int := (reqs.map (·.value.amountOrZero)).sum

/-- The bank honours the comments, with `balanceOf` telling the balances of the accounts. -/
structure BlindBankContract.Lawful (bank : BlindBankContract B) (balanceOf : B → Bytes → Int) :
    Prop where
  int64_balanceOf (b : B) (account : Bytes) : int64 (balanceOf b account) = balanceOf b account
  withdrawBatch_ok {transferID account reqs b balance signatures b'} :
    bank.withdrawBatch transferID account reqs b = (.ok (balance, signatures), b') →
      balance = int64 (balanceOf b account - batchAmount reqs) ∧
        balanceOf b' = Function.update (balanceOf b) account balance
  withdrawBatch_error {transferID account reqs b e b'} :
    bank.withdrawBatch transferID account reqs b = (.error e, b') → balanceOf b' = balanceOf b
  withdrawFullUnblinded_ok {transferID account b credit b'} :
    bank.withdrawFullUnblinded transferID account b = (.ok credit, b') →
      0 < balanceOf b account ∧ balanceOf b' = Function.update (balanceOf b) account 0
  withdrawFullUnblinded_error {transferID account b e b'} :
    bank.withdrawFullUnblinded transferID account b = (.error e, b') → balanceOf b' = balanceOf b
  deposit_ok {transferID account credit b balance b'} :
    bank.deposit transferID account credit b = (.ok balance, b') →
      balance = int64 (balanceOf b account + credit.value.amountOrZero) ∧
        balanceOf b' = Function.update (balanceOf b) account balance
  deposit_error {transferID account credit b e b'} :
    bank.deposit transferID account credit b = (.error e, b') → balanceOf b' = balanceOf b
  exchange (transferID : Bytes) (credit : AnyCredit) (request : BlindSignRequest) (b : B) :
    balanceOf (bank.exchange transferID credit request b).2 = balanceOf b
  balance (account : Bytes) (b : B) :
    (∀ n, (bank.balance account b).1 = .ok n → n = balanceOf b account) ∧
      balanceOf (bank.balance account b).2 = balanceOf b

/-! ## The in-memory bank -/

namespace InMem

variable {L : Type}

/-- The in-memory bank, called with a context that is not cancelled. Every full withdrawal rounds
with the same function and draws the same. -/
def bank (issuer : Issuer) (nl : Anonpay.NonceLocker L) (roundFunc : Int → Except Err Value)
    (d : Draw) : BlindBankContract (Bank L) where
  withdrawBatch _ account reqs b :=
    let (r, ledger) := b.ledger.withdrawBatch issuer account reqs
    (r, { b with ledger })
  withdrawFullUnblinded _ account b :=
    let (r, ledger) := b.ledger.withdrawFullUnblinded issuer roundFunc d account
    (r, { b with ledger })
  deposit _ account credit b :=
    let ((balance, err), w) :=
      World.exec nl (Anonpay.deposit issuer account credit) ⟨b.locker, b.ledger, [], none⟩
    (match err with
      | some e => .error e
      | none => .ok balance, ⟨w.locker, w.ledger⟩)
  exchange _ credit request b :=
    let (r, w) :=
      World.exec nl (Anonpay.exchange issuer credit request) ⟨b.locker, b.ledger, [], none⟩
    (r, ⟨w.locker, w.ledger⟩)
  balance account b := (.ok (int64 (b.ledger.balance account)), b)

/-- The balances of the in-memory bank as `int64` values. -/
def balanceOf (b : Bank L) (account : Bytes) : Int := int64 (b.ledger.balance account)

end InMem

end Anonpay
