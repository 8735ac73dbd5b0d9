import OpenPCC.Anonpay.World

/-!
# What one operation does

One equation for each operation run in a `World`: the reads of the context and the calls of the
locker in the order they happen, each at its own point of the operation. The point of a call is
the number of calls made before it, so `w.ctxAt k` is the caller's context at point `k`.
-/

namespace Anonpay

open Go Prog

variable {L : Type}

namespace World

variable (w : World L)

/-! ## The context over the points of an operation -/

@[simp] theorem ctx_after (l : L) (cs : List Call) : (w.after l cs).ctx = w.ctxAt cs.length := by
  simp [ctx, ctxAt, after]

@[simp] theorem ctxAt_after (l : L) (cs : List Call) (k : Nat) :
    (w.after l cs).ctxAt k = w.ctxAt (cs.length + k) := by
  simp [ctxAt, after, Nat.add_assoc]

@[simp] theorem after_after (l l' : L) (cs cs' : List Call) :
    (w.after l cs).after l' cs' = w.after l' (cs ++ cs') := by
  simp [after]

@[simp] theorem locker_after (l : L) (cs : List Call) : (w.after l cs).locker = l := rfl
@[simp] theorem ledger_after (l : L) (cs : List Call) : (w.after l cs).ledger = w.ledger := rfl
@[simp] theorem calls_after (l : L) (cs : List Call) : (w.after l cs).calls = w.calls ++ cs := rfl

/-! ## Running programs -/

variable {α β : Type} (nl : NonceLocker L)

@[simp] theorem handle_checkAndLockNonce (n : Nonce) :
    handle nl (.checkAndLockNonce n) w =
      ((nl.checkAndLockNonce w.ctx n w.locker).1,
        w.after (nl.checkAndLockNonce w.ctx n w.locker).2 [.checkAndLockNonce n]) := rfl

@[simp] theorem handle_consume (n : Nonce) (t : Bytes) :
    handle nl (.consume n t) w =
      ((nl.consume w.ctx n t w.locker).1,
        w.after (nl.consume w.ctx n t w.locker).2 [.consume n t]) := rfl

@[simp] theorem handle_release (n : Nonce) (t : Bytes) :
    handle nl (.release n t) w =
      ((nl.release w.ctx n t w.locker).1,
        w.after (nl.release w.ctx n t w.locker).2 [.release n t]) := rfl

@[simp] theorem handle_updateBalance (account : Bytes) (amount : Int) (credit : BlindedCredit) :
    handle nl (.updateBalance account amount credit) w =
      ((w.ledger.updateBalance account amount credit).1,
        { w.after w.locker [.updateBalance account amount credit] with
          ledger := (w.ledger.updateBalance account amount credit).2 }) := rfl

@[simp] theorem exec_ret (a : α) : exec nl (.ret a) w = (a, w) := rfl

@[simp] theorem exec_call (e : Call) (k : e.Reply → Op α) :
    exec nl (.call e k) w = exec nl (k (handle nl e w).1) (handle nl e w).2 := rfl

@[simp] theorem exec_bind (p : Op α) (f : α → Op β) :
    exec nl (p >>= f) w = exec nl (f (exec nl p w).1) (exec nl p w).2 :=
  run_bind _ p f w

end World

/-! ## Transactions -/

open World

section
variable (nl : NonceLocker L) (tx : Transaction) (w : World L)

theorem exec_ctxDone (h : tx.done = none) :
    exec nl tx.ctxDone w = (w.ctx, w.after w.locker [.callerCtx]) := by
  unfold Transaction.ctxDone
  rw [h]
  rfl

/-- `cancelFunc` keeps the caller's cause when the caller was first. -/
theorem exec_cancelFunc (cause : Err) (h : tx.done = none) :
    exec nl (tx.cancelFunc cause) w =
      ({ tx with done := some (w.ctx.getD ⟨.var .canceled, cause⟩) },
        w.after w.locker [.callerCtx]) := by
  unfold Transaction.cancelFunc
  rw [exec_bind, exec_ctxDone nl tx w h]
  cases w.ctx <;> rfl

theorem exec_commit (h : tx.done = none) :
    exec nl tx.commit w =
      match w.ctx with
      | some d => ((some d.err, tx), w.after w.locker [.callerCtx])
      | none =>
        let n := tx.credit.nonce
        let t := tx.lockedNonce.ticket
        match nl.consume (w.ctxAt 1) n t w.locker with
        | (none, l) =>
          ((none, { tx with done := some ((w.ctxAt 2).getD ⟨.var .canceled, .var .finished⟩) }),
            w.after l [.callerCtx, .consume n t, .callerCtx])
        | (some e, l) =>
          let r := nl.release (w.ctxAt 2) n t l
          ((some (.errorf "failed to consume locked nonce: %w" [] (e.join r.1)),
            { tx with done := some ((w.ctxAt 3).getD ⟨.var .canceled, e.join r.1⟩) }),
            w.after r.2 [.callerCtx, .consume n t, .release n t, .callerCtx]) := by
  unfold Transaction.commit
  rw [exec_bind, exec_ctxDone nl tx w h]
  cases w.ctx with
  | some d => rfl
  | none =>
    simp only [LockedNonce.consume, LockedNonce.release, perform_bind, exec_call, handle_consume,
      ctx_after, locker_after, List.length_singleton]
    cases nl.consume (w.ctxAt 1) tx.credit.nonce tx.lockedNonce.ticket w.locker with
    | mk r l => cases r <;> simp [exec_cancelFunc nl tx _ _ h]

/-- `Commit` of a finished transaction. -/
@[simp] theorem exec_commit_finished (i : Issuer) (c : BlindedCredit) (l : LockedNonce c.nonce)
    (d : CtxDone) :
    exec nl (Transaction.commit ⟨i, c, l, some d⟩) w = ((some d.err, ⟨i, c, l, some d⟩), w) := rfl

/-- `Rollback` of a finished transaction. -/
@[simp] theorem exec_rollback_finished (i : Issuer) (c : BlindedCredit) (l : LockedNonce c.nonce)
    (d : CtxDone) :
    exec nl (Transaction.rollback ⟨i, c, l, some d⟩) w =
      (if d.cause.is .finished then none else some d.err, w) := rfl

theorem exec_rollback (h : tx.done = none) :
    exec nl tx.rollback w =
      match w.ctx with
      | some d =>
        (if d.cause.is .finished then none else some d.err, w.after w.locker [.callerCtx])
      | none =>
        let n := tx.credit.nonce
        let t := tx.lockedNonce.ticket
        let r := nl.release (w.ctxAt 1) n t w.locker
        (r.1.map (.errorf "failed to release locked nonce: %w" []),
          w.after r.2 [.callerCtx, .release n t]) := by
  unfold Transaction.rollback
  rw [exec_bind, exec_ctxDone nl tx w h]
  cases w.ctx with
  | some d => rfl
  | none =>
    simp only [LockedNonce.release, perform_bind, exec_call, handle_release, ctx_after,
      locker_after, List.length_singleton]
    cases nl.release (w.ctxAt 1) tx.credit.nonce tx.lockedNonce.ticket w.locker with
    | mk r l => cases r <;> simp

end

theorem exec_beginTransaction (nl : NonceLocker L) (issuer : Issuer) (cred : BlindedCredit)
    (w : World L) :
    exec nl (beginTransaction issuer cred) w =
      match issuer.verifyCredit (.blinded cred) with
      | some e => (.error (.inputError (.errorf "failed to verify credit: %w" [] e)), w)
      | none =>
        match nl.checkAndLockNonce w.ctx cred.nonce w.locker with
        | (.error e, l) =>
          (.error (.errorf "failed to lock nonce: %w" [] e),
            w.after l [.checkAndLockNonce cred.nonce])
        | (.ok t, l) =>
          (.ok ⟨issuer, cred, ⟨t⟩, none⟩, w.after l [.checkAndLockNonce cred.nonce]) := by
  unfold beginTransaction
  cases issuer.verifyCredit (.blinded cred) with
  | some e => rfl
  | none =>
    simp only [checkAndLockNonce, perform_bind, exec_bind, exec_call, handle_checkAndLockNonce]
    cases nl.checkAndLockNonce w.ctx cred.nonce w.locker with
    | mk r l => cases r <;> rfl

/-! ## Exchanges -/

theorem exec_exchangerExchange (nl : NonceLocker L) (issuer : Issuer) (credit : AnyCredit)
    (req : BlindSignRequest) (w : World L) :
    exec nl (exchangerExchange issuer credit req) w =
      if credit.value ≠ req.value then
        (.error (.inputError (.new "non-matching value: %v and %v" [
          .value credit.value.shift credit.value.value,
          .value req.value.shift req.value.value])), w)
      else match issuer.verifyCredit credit with
      | some e => (.error (.inputError (.errorf "failed to validate credit signature: %w" [] e)), w)
      | none =>
        let n := credit.nonce
        match nl.checkAndLockNonce w.ctx n w.locker with
        | (.error e, l) =>
          (.error (.errorf "failed to lock credit nonce: %w" [] e),
            w.after l [.checkAndLockNonce n])
        | (.ok t, l) =>
          match issuer.blindSign req with
          | .error e =>
            let r := nl.release (w.ctxAt 1) n t l
            (.error (.errorf "failed to sign request: %w" [] (e.join r.1)),
              w.after r.2 [.checkAndLockNonce n, .release n t])
          | .ok signature =>
            match nl.consume (w.ctxAt 1) n t l with
            | (some e, l') =>
              (.error (.errorf "failed to consume nonce: %w" [] e),
                w.after l' [.checkAndLockNonce n, .consume n t])
            | (none, l') => (.ok signature, w.after l' [.checkAndLockNonce n, .consume n t]) := by
  unfold exchangerExchange
  split
  · rfl
  · cases issuer.verifyCredit credit with
    | some e => rfl
    | none =>
      simp only [checkAndLockNonce, perform_bind, exec_bind, exec_call, handle_checkAndLockNonce]
      cases nl.checkAndLockNonce w.ctx credit.nonce w.locker with
      | mk r l =>
        cases r with
        | error e => rfl
        | ok t =>
          cases issuer.blindSign req with
          | error e => simp [LockedNonce.release]
          | ok signature =>
            simp only [pure_eq, exec_ret, LockedNonce.consume, perform_bind, exec_call,
              handle_consume, ctx_after, locker_after, List.length_singleton]
            cases nl.consume (w.ctxAt 1) credit.nonce t l with
            | mk r l' => cases r <;> simp

end Anonpay
