import OpenPCC.Anonpay.Bank
import OpenPCC.Anonpay.NonceLocker

/-!
# One client at a time

`World` runs the operations of one client against any `NonceLocker` and a ledger. The caller's
context is cancelled at most once, before the call with a given number: that number is the point
of the operation at which the cancellation lands, and every number is one of the points.
-/

namespace Anonpay

open Go Prog

/-- `anonpay.NonceLocker` with its `LockedNonce`: each method gets the state of the context it is
called with and may change the locker. -/
structure NonceLocker (L : Type) where
  checkAndLockNonce : Option CtxDone → Nonce → L → Except Err Bytes × L
  consume : Option CtxDone → Nonce → Bytes → L → Option Err × L
  release : Option CtxDone → Nonce → Bytes → L → Option Err × L

/-- `FromTicketLocker` of the in-memory locker, which ignores its context; every `LockNonce` reads
the same clock and the same random bytes. -/
def InMem.nonceLocker (now : Int) (rand : Except Err (Vector UInt8 8)) :
    Anonpay.NonceLocker InMem.NonceLocker where
  checkAndLockNonce _ n l := l.lockNonce now rand n
  consume _ n t l := l.consumeNonce n t
  release _ n t l := l.releaseNonce n t

/-- The state an operation runs in; `calls` are the ones it has made. -/
structure World (L : Type) where
  locker : L
  ledger : Ledger
  calls : List Call
  cancel : Option (Nat × CtxDone)

namespace World

variable {L : Type}

/-- The state of the caller's context when the operation has made `k` more calls. -/
def ctxAt (w : World L) (k : Nat) : Option CtxDone :=
  match w.cancel with
  | some (j, d) => if j ≤ w.calls.length + k then some d else none
  | none => none

/-- The state of the caller's context now. -/
def ctx (w : World L) : Option CtxDone := w.ctxAt 0

/-- The calls `cs` were made and left the locker `l`. -/
def after (w : World L) (l : L) (cs : List Call) : World L :=
  { w with locker := l, calls := w.calls ++ cs }

def handle (nl : NonceLocker L) : (e : Call) → World L → e.Reply × World L
  | .checkAndLockNonce n, w =>
    let (r, l) := nl.checkAndLockNonce w.ctx n w.locker
    (r, w.after l [.checkAndLockNonce n])
  | .consume n t, w =>
    let (r, l) := nl.consume w.ctx n t w.locker
    (r, w.after l [.consume n t])
  | .release n t, w =>
    let (r, l) := nl.release w.ctx n t w.locker
    (r, w.after l [.release n t])
  | .callerCtx, w => (w.ctx, w.after w.locker [.callerCtx])
  | .updateBalance account amount credit, w =>
    let (r, b) := w.ledger.updateBalance account amount credit
    (r, { w.after w.locker [.updateBalance account amount credit] with ledger := b })
  | .returned r, w => ((), w.after w.locker [.returned r])

/-- Run an operation in `w`. -/
def exec {α : Type} (nl : NonceLocker L) (p : Op α) (w : World L) : α × World L :=
  p.run (handle nl) w

end World

/-- The amounts added to balances by the calls `cs`. -/
def balanceUpdates (cs : List Call) : List Int :=
  cs.filterMap fun
    | .updateBalance _ amount _ => some amount
    | _ => none

end Anonpay
