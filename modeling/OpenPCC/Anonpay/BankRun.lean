import OpenPCC.Lib.Table
import OpenPCC.Anonpay.World

/-!
# Runs of the bank

A run is a list of operations on one bank, one after the other, each successful or failing. A
deposit or an exchange carries the cancellation of its caller's context, a full withdrawal the
rounding function and what the issuer draws. The locker is any.
-/

namespace Anonpay

open Go

inductive BankOp where
  | deposit (account : Bytes) (credit : BlindedCredit) (cancel : Option (Nat × CtxDone))
  | withdrawBatch (account : Bytes) (reqs : List BlindSignRequest)
  | withdrawFullUnblinded (account : Bytes) (roundFunc : Int → Except Err Value)
      (d : Draw)
  | exchange (credit : AnyCredit) (request : BlindSignRequest) (cancel : Option (Nat × CtxDone))
  | balance (account : Bytes)

inductive BankReply where
  | deposit (balance : Int) (err : Option Err)
  | withdrawBatch (r : Except Err (Int × List Bytes))
  | withdrawFullUnblinded (r : Except Err UnblindedCredit)
  | exchange (r : Except Err Bytes)
  | balance (b : Int)

/-- An operation, what it returned and the calls it made. -/
structure BankEvent where
  op : BankOp
  reply : BankReply
  calls : List Call

structure Bank (L : Type) where
  locker : L
  ledger : Ledger

variable {L : Type}

def BankOp.exec (issuer : Issuer) (nl : NonceLocker L) (b : Bank L) :
    BankOp → BankReply × List Call × Bank L
  | .deposit account credit cancel =>
    let r := World.exec nl (Anonpay.deposit issuer account credit) ⟨b.locker, b.ledger, [], cancel⟩
    (.deposit r.1.1 r.1.2, r.2.calls, ⟨r.2.locker, r.2.ledger⟩)
  | .withdrawBatch account reqs =>
    let r := b.ledger.withdrawBatch issuer account reqs
    (.withdrawBatch r.1, [], { b with ledger := r.2 })
  | .withdrawFullUnblinded account roundFunc d =>
    let r := b.ledger.withdrawFullUnblinded issuer roundFunc d account
    (.withdrawFullUnblinded r.1, [], { b with ledger := r.2 })
  | .exchange credit request cancel =>
    let r := World.exec nl (Anonpay.exchange issuer credit request) ⟨b.locker, b.ledger, [], cancel⟩
    (.exchange r.1, r.2.calls, ⟨r.2.locker, r.2.ledger⟩)
  | .balance account => (.balance (b.ledger.balance account), [], b)

/-- The bank and the operations made so far, oldest first. -/
structure BankRun (L : Type) where
  bank : Bank L
  history : List BankEvent

namespace BankRun

def step (issuer : Issuer) (nl : NonceLocker L) (r : BankRun L) (op : BankOp) : BankRun L :=
  let (reply, calls, bank) := op.exec issuer nl r.bank
  ⟨bank, r.history ++ [⟨op, reply, calls⟩]⟩

/-- The run of `ops` from `r`. -/
def run (issuer : Issuer) (nl : NonceLocker L) (r : BankRun L) (ops : List BankOp) : BankRun L :=
  ops.foldl (step issuer nl) r

/-- A new bank with the locker `l`. -/
def new (l : L) : BankRun L := ⟨⟨l, .new⟩, []⟩

/-- The amount `op` adds to the balances, if it adds one, fits in an `int64` with them. -/
def InRange (r : BankRun L) : BankOp → Prop
  | .deposit _ credit _ =>
    r.bank.ledger.accounts.total (·.balance) + credit.value.amountOrZero ≤ maxInt64
  | _ => True

/-- The amounts stay inside `int64` along the run of `ops` from `r`. -/
def Fits (issuer : Issuer) (nl : NonceLocker L) (r : BankRun L) : List BankOp → Prop
  | [] => True
  | op :: ops => r.InRange op ∧ Fits issuer nl (r.step issuer nl op) ops

instance (r : BankRun L) : DecidablePred r.InRange
  | .deposit _ _ _ => inferInstanceAs (Decidable (_ ≤ _))
  | .withdrawBatch _ _ | .withdrawFullUnblinded _ _ _ | .exchange _ _ _ | .balance _ =>
    .isTrue trivial

instance decidableFits (issuer : Issuer) (nl : NonceLocker L) :
    ∀ (r : BankRun L) (ops : List BankOp), Decidable (r.Fits issuer nl ops)
  | _, [] => .isTrue trivial
  | r, op :: ops =>
    have := decidableFits issuer nl (r.step issuer nl op) ops
    inferInstanceAs (Decidable (_ ∧ _))

end BankRun

/-! ## Amounts of a history -/

/-- What an operation added to the balances. -/
def BankEvent.deposited (e : BankEvent) : Int := (balanceUpdates e.calls).sum

/-- What an operation reported as deposited: the amount of the credit, if it returned no error. -/
def BankEvent.reported (e : BankEvent) : Int :=
  match e.op, e.reply with
  | .deposit _ credit _, .deposit _ none => credit.value.amountOrZero
  | _, _ => 0

/-- The amounts of the credits an operation handed out. -/
def BankEvent.handedOut (e : BankEvent) : Int :=
  match e.op, e.reply with
  | .withdrawBatch _ reqs, .withdrawBatch (.ok _) => (reqs.map (·.value.amountOrZero)).sum
  | _, .withdrawFullUnblinded (.ok credit) => credit.value.amountOrZero
  | _, _ => 0

/-- The context of the caller is not cancelled during the operation. -/
def BankOp.uncancelled : BankOp → Prop
  | .deposit _ _ cancel => cancel = none
  | .exchange _ _ cancel => cancel = none
  | _ => True

end Anonpay
