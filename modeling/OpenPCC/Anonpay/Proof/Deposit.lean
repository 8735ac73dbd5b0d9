import OpenPCC.Anonpay.Proof.Exec

/-!
# Deposits and cancellation

`deposit_cases` says everything `Bank.Deposit` can do against any locker and any cancellation of
the caller's context: it fails and leaves the ledger alone, or it spends the credit (`Spends`) and
updates the balance, and then the deferred `Rollback` decides which error is reported.

A cancellation that lands between the check of the context in `Commit` and its deferred
`cancelFunc` makes that `Rollback` fail after the balance was updated (`Lapses`), and these are
the only cancellations that do (`deposit_error_unchanged_iff`).
-/

namespace Anonpay

open Go Prog World

variable {L : Type}

/-! ## Operations that update no balance -/

/-- From `w` to `w'` no balance was updated. -/
def Quiet (w w' : World L) : Prop :=
  w'.ledger = w.ledger ∧ balanceUpdates w'.calls = balanceUpdates w.calls

theorem Quiet.refl (w : World L) : Quiet w w := ⟨rfl, rfl⟩

theorem Quiet.trans {w w' w'' : World L} (h : Quiet w w') (h' : Quiet w' w'') : Quiet w w'' :=
  ⟨h'.1.trans h.1, h'.2.trans h.2⟩

theorem quiet_after (w : World L) (l : L) {cs : List Call} (h : balanceUpdates cs = []) :
    Quiet w (w.after l cs) := by
  refine ⟨rfl, ?_⟩
  rw [calls_after, balanceUpdates, List.filterMap_append, ← balanceUpdates, ← balanceUpdates, h,
    List.append_nil]

section
variable (nl : NonceLocker L) (tx : Transaction) (w : World L)

theorem rollback_quiet : Quiet w (exec nl tx.rollback w).2 := by
  cases h : tx.done with
  | some d =>
    obtain ⟨_, _, _, _⟩ := tx
    cases h
    exact .refl w
  | none =>
    rw [exec_rollback nl tx w h]
    split
    · exact quiet_after w _ rfl
    · exact quiet_after w _ rfl

end

/-! ## What a deposit does -/

/-- The credit is worth `amount` and verifies, its nonce is locked, the context is open when
`Commit` checks it, and the nonce is consumed. -/
def Spends (nl : NonceLocker L) (issuer : Issuer) (credit : BlindedCredit) (w : World L)
    (amount : Int) : Prop :=
  credit.value.amount = .ok amount ∧ 0 < amount ∧ issuer.verifyCredit (.blinded credit) = none ∧
    ∃ t l, nl.checkAndLockNonce w.ctx credit.nonce w.locker = (.ok t, l) ∧ w.ctxAt 1 = none ∧
      (nl.consume (w.ctxAt 2) credit.nonce t l).1 = none

/-- The error of a deposit whose balance was updated, if the caller's context is `ctx` when `Commit`
finishes. -/
def deferredErr (ctx : Option CtxDone) : Option Err :=
  ctx.bind fun d => if d.cause.is .finished then none else some (.join1 d.err)

/-- The part of `Deposit` after the lock. -/
theorem depositTx_cases (nl : NonceLocker L) (account : Bytes) (amount : Int)
    (credit : BlindedCredit) (tx : Transaction) (htx : tx.done = none) (w : World L) :
    let r := exec nl (depositTx account amount credit tx) w
    let consumed := w.ctx = none ∧
      (nl.consume (w.ctxAt 1) tx.credit.nonce tx.lockedNonce.ticket w.locker).1 = none
    (r.1.2 ≠ none ∧ Quiet w r.2 ∧ ¬ consumed) ∨
      (consumed ∧ (r.1.1, r.2.ledger) = w.ledger.updateBalance account amount credit ∧
        balanceUpdates r.2.calls = balanceUpdates w.calls ++ [amount] ∧
        r.1.2 = deferredErr (w.ctxAt 2)) := by
  unfold depositTx
  simp only [exec_bind, exec_commit nl tx w htx]
  cases hctx : w.ctx with
  | some d =>
    simp only [exec_bind, pure_eq, exec_ret]
    refine .inl ⟨by simp [join], ?_, by simp⟩
    exact (quiet_after w _ rfl).trans (rollback_quiet nl tx _)
  | none =>
    cases hc : nl.consume (w.ctxAt 1) tx.credit.nonce tx.lockedNonce.ticket w.locker with
    | mk r l =>
      cases r with
      | some e =>
        simp only [exec_bind, pure_eq, exec_ret]
        refine .inl ⟨by simp [join], ?_, by simp⟩
        exact (quiet_after w _ rfl).trans (rollback_quiet nl _ _)
      | none =>
        -- the transaction is finished, so `Rollback` only reads its context
        refine .inr ⟨⟨rfl, rfl⟩, ?_⟩
        simp only [exec_bind, perform_bind, exec_call, handle_updateBalance, exec_ret, pure_eq,
          exec_rollback_finished]
        refine ⟨rfl, by simp [balanceUpdates], ?_⟩
        cases w.ctxAt 2 with
        | none => rfl
        | some d => cases hd : d.cause.is .finished <;> simp [deferredErr, join, hd]

section
variable (nl : NonceLocker L) (issuer : Issuer) (account : Bytes) (credit : BlindedCredit)
  (w : World L)

/-- `Deposit` fails and updates no balance, or spends the credit and updates the balance; then it
fails only if the caller's context is done when `Commit` finishes. -/
theorem deposit_cases :
    let r := exec nl (deposit issuer account credit) w
    (r.1.2 ≠ none ∧ Quiet w r.2 ∧ ∀ amount, ¬ Spends nl issuer credit w amount) ∨
      ∃ amount, Spends nl issuer credit w amount ∧
        (r.1.1, r.2.ledger) = w.ledger.updateBalance account amount credit ∧
        balanceUpdates r.2.calls = balanceUpdates w.calls ++ [amount] ∧
        r.1.2 = deferredErr (w.ctxAt 3) := by
  unfold deposit
  cases hamount : credit.value.amount with
  | error e =>
    exact .inl ⟨nofun, .refl w, fun a h => by simp [Spends, hamount] at h⟩
  | ok amount =>
    by_cases hpos : amount ≤ 0
    · simp only [hpos, ↓reduceIte]
      refine .inl ⟨nofun, .refl w, fun a h => ?_⟩
      have heq : amount = a := Except.ok.inj (hamount.symm.trans h.1)
      have := h.2.1
      omega
    · simp only [hpos, ↓reduceIte, exec_bind, exec_beginTransaction]
      cases hverify : issuer.verifyCredit (.blinded credit) with
      | some e => exact .inl ⟨nofun, .refl w, fun a h => by simp [Spends, hverify] at h⟩
      | none =>
        cases hlock : nl.checkAndLockNonce w.ctx credit.nonce w.locker with
        | mk r l =>
          cases r with
          | error e =>
            exact .inl ⟨nofun, quiet_after w l rfl, fun a h => by simp [Spends, hlock] at h⟩
          | ok t =>
            have hquiet : Quiet w (w.after l [.checkAndLockNonce credit.nonce]) :=
              quiet_after w l rfl
            rcases depositTx_cases nl account amount credit ⟨issuer, credit, ⟨t⟩, none⟩ rfl
              (w.after l [.checkAndLockNonce credit.nonce]) with
              ⟨herr, hq, hno⟩ | ⟨⟨hctx, hcons⟩, hledger, hupd, herr⟩
            · refine .inl ⟨herr, hquiet.trans hq, ?_⟩
              rintro a ⟨_, _, _, t', l', hl, hctx, hcons⟩
              apply hno
              obtain ⟨rfl, rfl⟩ : t = t' ∧ l = l' := by simpa [hlock] using hl
              simpa using ⟨hctx, hcons⟩
            · simp only [ctx_after, ctxAt_after, List.length_singleton, locker_after] at hctx hcons
              refine .inr ⟨amount, ⟨hamount, by omega, hverify, t, l, hlock, hctx, hcons⟩, hledger,
                ?_, ?_⟩
              · rw [hupd, hquiet.2]
              · simpa using herr

end

/-! ## Cancellations that lapse -/

/-- The credit is spent, and the caller's context is cancelled after `Commit` has checked it and
before its deferred `cancelFunc`, with another cause than `ErrFinished`. -/
def Lapses (nl : NonceLocker L) (issuer : Issuer) (credit : BlindedCredit) (w : World L) : Prop :=
  ∃ amount d, Spends nl issuer credit w amount ∧ w.ctxAt 3 = some d ∧ d.cause.is .finished = false

theorem deferredErr_ne_none {ctx : Option CtxDone} :
    deferredErr ctx ≠ none ↔ ∃ d, ctx = some d ∧ d.cause.is .finished = false := by
  cases ctx with
  | none => simp [deferredErr]
  | some d => cases hd : d.cause.is .finished <;> simp [deferredErr, hd]

/-- **A failed deposit leaves the account untouched** exactly when no cancellation lapses: for any
locker, ledger, account and credit, and for every point of cancellation. -/
theorem deposit_error_unchanged_iff (nl : NonceLocker L) (issuer : Issuer) (account : Bytes)
    (credit : BlindedCredit) (w : World L) :
    let r := exec nl (deposit issuer account credit) w
    (r.1.2 ≠ none →
      r.2.ledger.balance account = w.ledger.balance account ∧
        r.2.ledger.accountHistory account = w.ledger.accountHistory account) ↔
      ¬ Lapses nl issuer credit w := by
  intro r
  rcases deposit_cases nl issuer account credit w with
    ⟨-, hquiet, hno⟩ | ⟨amount, hspends, hledger, -, herr⟩
  · have hlapse : ¬ Lapses nl issuer credit w := fun ⟨a, _, h, _⟩ => hno a h
    refine iff_of_true (fun _ => ?_) hlapse
    rw [show r.2.ledger = w.ledger from hquiet.1]
    exact ⟨rfl, rfl⟩
  · -- the balance was updated, so the history has grown
    have hgrown : r.2.ledger.accountHistory account ≠ w.ledger.accountHistory account := by
      rw [show r.2.ledger = _ from congrArg Prod.snd hledger,
        Ledger.accountHistory_updateBalance]
      simp
    have hlapse : Lapses nl issuer credit w ↔ r.1.2 ≠ none := by
      rw [show r.1.2 = _ from herr, deferredErr_ne_none]
      constructor
      · rintro ⟨_, d, -, hd⟩
        exact ⟨d, hd⟩
      · rintro ⟨d, hd⟩
        exact ⟨amount, d, hspends, hd⟩
    rw [hlapse]
    exact ⟨fun h he => hgrown (h he).2, fun h he => absurd he h⟩

/-- The caller cancels between `Consume` and the deferred `cancelFunc`: the deposit fails with
`context canceled`, and the 5 units are on the account. -/
theorem deposit_cancelled_after_consume :
    let credit : BlindedCredit := ⟨⟨false, 5, by decide⟩, ⟨0, List.replicate 16 7, false⟩, []⟩
    let w : World InMem.NonceLocker :=
      ⟨.new, .new, [], some (3, ⟨.var .canceled, .var .canceled⟩)⟩
    let r := exec (InMem.nonceLocker 0 (.ok (Vector.replicate 8 1)))
      (deposit ⟨.accepting⟩ [1] credit) w
    r.1.2 = some (.join1 (.var .canceled)) ∧ w.ledger.balance [1] = 0 ∧
      r.2.ledger.balance [1] = 5 ∧ r.2.ledger.accountHistory [1] = [5] := by
  decide

end Anonpay
