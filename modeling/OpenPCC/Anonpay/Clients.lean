import OpenPCC.Anonpay.Bank
import OpenPCC.Anonpay.NonceLocker

/-!
# Concurrent clients of one locker

Any number of clients share the in-memory locker and the ledger of a bank. Each client deposits a
credit, exchanges one, or begins a transaction and calls any list of `Commit`,
`CommitWithUnspend` and `Rollback` on it. `Served` is the effect of one call; between two calls
of a client any calls of others may come, and any caller may cancel its context.
-/

namespace Anonpay

open Go Prog

/-! ## The clients -/

/-- A call of a method of `Transaction`. -/
inductive TxCall where
  | commit
  | commitWithUnspend (d : Draw) (unspend : Value)
  | rollback

inductive Client where
  | deposit (account : Bytes) (credit : BlindedCredit)
  | exchange (credit : AnyCredit) (req : BlindSignRequest)
  | transaction (credit : BlindedCredit) (calls : List TxCall)

/-- Call methods of `tx` in turn. Every return of `Commit` is marked, the one inside
`CommitWithUnspend` too. -/
def Transaction.calls (tx : Transaction) : List TxCall → Op Unit
  | [] => return ()
  | .commit :: cs => do
    let (err, tx) ← tx.commit
    perform (Call.returned (.commit tx.credit.nonce err))
    tx.calls cs
  | .commitWithUnspend d unspend :: cs => do
    let (err, tx) ← tx.commit
    perform (Call.returned (.commit tx.credit.nonce err))
    perform (Call.returned (.commitWithUnspend (tx.refund d unspend err)))
    tx.calls cs
  | .rollback :: cs => do
    let _ ← tx.rollback
    tx.calls cs

/-- The program of a client. -/
def Client.prog (issuer : Issuer) : Client → Op Unit
  | .deposit account credit => do
    let _ ← Anonpay.deposit issuer account credit
    return ()
  | .exchange credit req => do
    let signature ← exchangerExchange issuer credit req
    perform (Call.returned (.exchange credit.nonce signature))
  | .transaction credit cs => do
    match ← beginTransaction issuer credit with
    | .error _ => return ()
    | .ok tx => tx.calls cs

/-! ## What they share -/

/-- The locker, the ledger and the state of the context of each client's caller. -/
structure Shared (ι : Type) where
  locker : InMem.NonceLocker
  ledger : Ledger
  ctx : ι → Option CtxDone

variable {ι : Type}

/-- The effect of the call `e` of client `i`. The clock and the ticket bytes are those a
`LockNonce` reads. -/
def serve (now : Int) (rand : Except Err (Vector UInt8 8)) (i : ι) :
    (e : Call) → Shared ι → e.Reply × Shared ι
  | .checkAndLockNonce n, w =>
    let (r, l) := w.locker.lockNonce now rand n
    (r, { w with locker := l })
  | .consume n t, w =>
    let (r, l) := w.locker.consumeNonce n t
    (r, { w with locker := l })
  | .release n t, w =>
    let (r, l) := w.locker.releaseNonce n t
    (r, { w with locker := l })
  | .callerCtx, w => (w.ctx i, w)
  | .updateBalance account amount credit, w =>
    let (r, b) := w.ledger.updateBalance account amount credit
    (r, { w with ledger := b })
  | .returned _, w => ((), w)

/-- The call `e` of client `i` is answered by `r` and leaves `w'`, at some time and with some
ticket bytes. -/
def Served (i : ι) (w : Shared ι) (e : Call) (r : e.Reply) (w' : Shared ι) : Prop :=
  ∃ now rand, serve now rand i e w = (r, w')

/-- The caller of some client cancels its context. -/
def Cancelled [DecidableEq ι] (w w' : Shared ι) : Prop :=
  ∃ i d, w.ctx i = none ∧ w' = { w with ctx := Function.update w.ctx i (some d) }

/-- The states the clients reach from the shared state `w`. -/
def Reachable [DecidableEq ι] (issuer : ι → Issuer) (clients : ι → Client) (w : Shared ι)
    (s : Pool.State ι Call Call.Reply Unit (Shared ι)) : Prop :=
  Pool.Reach Served Cancelled (Pool.init (fun i => (clients i).prog (issuer i)) w) s

theorem reachable_play [DecidableEq ι] (issuer : ι → Issuer) (clients : ι → Client) (w : Shared ι)
    (now : Int) (rand : Except Err (Vector UInt8 8)) (sched : List ι) :
    Reachable issuer clients w
      (Pool.play (serve now rand) sched (Pool.init (fun i => (clients i).prog (issuer i)) w)) :=
  Pool.reach_play (fun _ _ _ => ⟨now, rand, rfl⟩) sched _

/-! ## What a call is worth -/

/-- A call and its reply. -/
abbrev Event : Type := Prog.Event Call Call.Reply

/-- A lock, consume or release of the nonce bytes `n` succeeded. -/
def succeeds (n : Bytes) : Event → Bool
  | ⟨.checkAndLockNonce m, .ok _⟩ => m.nonce == n
  | ⟨.consume m _, none⟩ => m.nonce == n
  | ⟨.release m _, none⟩ => m.nonce == n
  | _ => false

/-- The nonce bytes `n` were consumed. -/
def consumes (n : Bytes) : Event → Bool
  | ⟨.consume m _, none⟩ => m.nonce == n
  | _ => false

/-- A credit with the nonce bytes `n` yielded value: it was added to a balance, exchanged for a
signature, or `Commit` accepted it as payment. -/
def yields (n : Bytes) : Event → Bool
  | ⟨.updateBalance _ _ credit, _⟩ => credit.nonce.nonce == n
  | ⟨.returned (.exchange m (.ok _)), _⟩ => m.nonce == n
  | ⟨.returned (.commit m none), _⟩ => m.nonce == n
  | _ => false

end Anonpay
