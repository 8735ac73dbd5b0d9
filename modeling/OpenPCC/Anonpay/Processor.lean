import OpenPCC.Lib.Prog
import OpenPCC.Anonpay.Credit

/-!
# Transactions and exchanges (`anonpay/processor.go`, `exchanger.go`)

The operations are programs over `Call`: the calls of the nonce locker, the reads of the caller's
context and the bank's balance update, the points at which other clients and the caller's
cancellation can interleave. Everything between two calls is pure.

The context of a transaction is derived from the caller's: it is done when the caller's context
is done or `cancelFunc` was called, and the first of the two sets its cause. `Transaction.done`
is settled when `cancelFunc` is called; until then the caller's context decides.
-/

namespace Anonpay

open Go

/-! ## Calls -/

/-- What an operation reports when it returns. -/
inductive Returned where
  | commit (nonce : Nonce) (err : Option Err)
  | commitWithUnspend (refund : Except Err UnblindedCredit)
  | exchange (nonce : Nonce) (signature : Except Err Bytes)

/-- The calls the operations are made of. `returned` has no effect: it marks in a run that an
operation returned. -/
inductive Call where
  /-- `NonceLocker.CheckAndLockNonce` -/
  | checkAndLockNonce (nonce : Nonce)
  /-- `LockedNonce.Consume` of the lock with this ticket -/
  | consume (nonce : Nonce) (ticket : Bytes)
  /-- `LockedNonce.Release` of the lock with this ticket -/
  | release (nonce : Nonce) (ticket : Bytes)
  /-- Is the caller's context done? -/
  | callerCtx
  /-- The critical section of `Bank.Deposit`: add a credit's amount to an account. -/
  | updateBalance (account : Bytes) (amount : Int) (credit : BlindedCredit)
  | returned (r : Returned)

abbrev Call.Reply : Call → Type
  | .checkAndLockNonce _ => Except Err Bytes
  | .consume _ _ => Option Err
  | .release _ _ => Option Err
  | .callerCtx => Option CtxDone
  | .updateBalance _ _ _ => Int
  | .returned _ => Unit

/-- An operation of the package. -/
abbrev Op : Type → Type := Prog Call Call.Reply

open Prog (perform)

/-! ## Transactions -/

/-- `noncelocking.ticketLock`: a lock on the nonce `n`. -/
structure LockedNonce (n : Nonce) where
  ticket : Bytes
  deriving DecidableEq, Repr

def LockedNonce.consume {n : Nonce} (l : LockedNonce n) : Op (Option Err) :=
  perform (Call.consume n l.ticket)

def LockedNonce.release {n : Nonce} (l : LockedNonce n) : Op (Option Err) :=
  perform (Call.release n l.ticket)

/-- `ticketLockerAdapter.CheckAndLockNonce`. -/
def checkAndLockNonce (nonce : Nonce) : Op (Except Err (LockedNonce nonce)) := do
  let ticket : Except Err Bytes ← perform (Call.checkAndLockNonce nonce)
  match ticket with
  | .error e => return .error e
  | .ok ticket => return .ok ⟨ticket⟩

/-- `anonpay.Transaction`; `done` is the state of its context if `cancelFunc` was called. -/
structure Transaction where
  issuer : Issuer
  credit : BlindedCredit
  lockedNonce : LockedNonce credit.nonce
  done : Option CtxDone

/-- `Processor.BeginTransaction`. -/
def beginTransaction (issuer : Issuer) (cred : BlindedCredit) : Op (Except Err Transaction) := do
  match issuer.verifyCredit (.blinded cred) with
  | some e => return .error (.inputError (.errorf "failed to verify credit: %w" [] e))
  | none =>
    match ← checkAndLockNonce cred.nonce with
    | .error e => return .error (.errorf "failed to lock nonce: %w" [] e)
    | .ok lockedNonce => return .ok ⟨issuer, cred, lockedNonce, none⟩

namespace Transaction

/-- `tx.ctx.Err()` and `context.Cause(tx.ctx)`. -/
def ctxDone (tx : Transaction) : Op (Option CtxDone) :=
  match tx.done with
  | some d => return some d
  | none => perform Call.callerCtx

/-- `tx.cancelFunc(cause)`: without effect on a context that is already done. -/
def cancelFunc (tx : Transaction) (cause : Err) : Op Transaction := do
  match ← tx.ctxDone with
  | some d => return { tx with done := some d }
  | none => return { tx with done := some ⟨.var .canceled, cause⟩ }

/-- `Transaction.Commit`. The deferred `cancelFunc` is not set up when the context is done. -/
def commit (tx : Transaction) : Op (Option Err × Transaction) := do
  match ← tx.ctxDone with
  | some d => return (some d.err, tx)
  | none =>
    match ← tx.lockedNonce.consume with
    | some e =>
      let err := e.join (← tx.lockedNonce.release)
      let tx ← tx.cancelFunc err
      return (some (.errorf "failed to consume locked nonce: %w" [] err), tx)
    | none =>
      let tx ← tx.cancelFunc (.var .finished)
      return (none, tx)

/-- What `CommitWithUnspend` does with the result `err` of `Commit`. -/
def refund (tx : Transaction) (d : Draw) (unspend : Value) (err : Option Err) :
    Except Err UnblindedCredit :=
  match err with
  | some e => .error e
  | none =>
    match tx.issuer.issueUnblindedCredit d unspend with
    | .error e => .error (.errorf "failed to create refund credit: %w" [] e)
    | .ok cred => .ok cred

/-- `Transaction.CommitWithUnspend`. -/
def commitWithUnspend (tx : Transaction) (d : Draw) (unspend : Value) :
    Op (Except Err UnblindedCredit × Transaction) := do
  let (err, tx) ← tx.commit
  return (tx.refund d unspend err, tx)

/-- `Transaction.Rollback`. -/
def rollback (tx : Transaction) : Op (Option Err) := do
  match ← tx.ctxDone with
  | some d => return if d.cause.is .finished then none else some d.err
  | none =>
    match ← tx.lockedNonce.release with
    | some e => return some (.errorf "failed to release locked nonce: %w" [] e)
    | none => return none

end Transaction

/-! ## Exchanges -/

/-- `Exchanger.Exchange`. -/
def exchangerExchange (issuer : Issuer) (credit : AnyCredit) (req : BlindSignRequest) :
    Op (Except Err Bytes) := do
  if credit.value ≠ req.value then
    return .error (.inputError (.new "non-matching value: %v and %v"
      [.value credit.value.shift credit.value.value, .value req.value.shift req.value.value]))
  else match issuer.verifyCredit credit with
  | some e => return .error (.inputError (.errorf "failed to validate credit signature: %w" [] e))
  | none =>
    match ← checkAndLockNonce credit.nonce with
    | .error e => return .error (.errorf "failed to lock credit nonce: %w" [] e)
    | .ok nonceLock =>
      match issuer.blindSign req with
      | .error e =>
        let err := e.join (← nonceLock.release)
        return .error (.errorf "failed to sign request: %w" [] err)
      | .ok signature =>
        -- unlike Commit, nothing releases the lock when Consume fails
        match ← nonceLock.consume with
        | some e => return .error (.errorf "failed to consume nonce: %w" [] e)
        | none => return .ok signature

end Anonpay
