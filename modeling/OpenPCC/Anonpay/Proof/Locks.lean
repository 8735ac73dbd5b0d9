import OpenPCC.Anonpay.Contract
import OpenPCC.Anonpay.Proof.Exec

/-!
# What a failed spend leaves locked

For any locker that honours its contract, one equivalence for each operation that holds a lock:
when `Exchange`, `Commit` or `Rollback` has returned, its lock is gone, exactly if

* `Exchange`: `Consume` did not fail after the request was signed; no branch releases then;
* `Commit`, `Rollback`: the context of the transaction was not done when the lock was still held;
  both return before they touch the lock.
-/

namespace Anonpay

open Go Prog World

variable {L : Type}

/-- `Exchange` locks the nonce of the credit with ticket `t`, which leaves the locker `l`. -/
def ExchangeLocks (nl : NonceLocker L) (issuer : Issuer) (credit : AnyCredit)
    (req : BlindSignRequest) (w : World L) (t : Bytes) (l : L) : Prop :=
  credit.value = req.value ∧ issuer.verifyCredit credit = none ∧
    nl.checkAndLockNonce w.ctx credit.nonce w.locker = (.ok t, l)

section
variable {nl : NonceLocker L} (C : Contract nl)

theorem exchange_unlocks_iff {issuer : Issuer} {credit : AnyCredit} {req : BlindSignRequest}
    {w : World L} {t : Bytes} {l : L} (h : ExchangeLocks nl issuer credit req w t l) :
    C.status (exec nl (exchangerExchange issuer credit req) w).2.locker credit.nonce.nonce ≠
        .locked t ↔
      ∀ sig, issuer.blindSign req = .ok sig →
        (nl.consume (w.ctxAt 1) credit.nonce t l).1 = none := by
  obtain ⟨hvalue, hverify, hlock⟩ := h
  have hlocked : C.status l credit.nonce.nonce = .locked t := (C.lock_ok hlock).2
  rw [exec_exchangerExchange]
  simp only [ne_eq, hvalue, not_true_eq_false, ↓reduceIte, hverify, hlock]
  cases issuer.blindSign req with
  | error e => simp [C.release_locked hlocked]
  | ok sig =>
    cases hcons : nl.consume (w.ctxAt 1) credit.nonce t l with
    | mk r l' =>
      cases r with
      | none => simp [C.consume_ok hcons]
      | some e =>
        have hsame : l' = l := C.consume_error hcons
        simp [hsame, hlocked]

theorem Contract.release_unlocks (c : Option CtxDone) (n : Nonce) (t : Bytes) (l : L) :
    C.status (nl.release c n t l).2 n.nonce ≠ .locked t := by
  by_cases h : C.status l n.nonce = .locked t
  · simp [C.release_locked h]
  · exact C.release_other h

variable (tx : Transaction) (w : World L)

/-- The lock of `tx` is held, and the context of `tx` is done. -/
def Transaction.Stuck (C : Contract nl) (tx : Transaction) (w : World L) : Prop :=
  C.status w.locker tx.credit.nonce.nonce = .locked tx.lockedNonce.ticket ∧
    (tx.done.or w.ctx).isSome

theorem commit_unlocks_iff :
    C.status (exec nl tx.commit w).2.locker tx.credit.nonce.nonce ≠
        .locked tx.lockedNonce.ticket ↔ ¬ tx.Stuck C w := by
  unfold Transaction.Stuck
  cases hdone : tx.done with
  | some d =>
    obtain ⟨_, _, _, _⟩ := tx
    cases hdone
    simp
  | none =>
    simp only [exec_commit nl tx w hdone]
    cases w.ctx with
    | some d => simp
    | none =>
      cases hcons : nl.consume (w.ctxAt 1) tx.credit.nonce tx.lockedNonce.ticket w.locker with
      | mk r l =>
        cases r with
        | none => simp [C.consume_ok hcons]
        | some e => simp [C.release_unlocks]

theorem rollback_unlocks_iff :
    C.status (exec nl tx.rollback w).2.locker tx.credit.nonce.nonce ≠
        .locked tx.lockedNonce.ticket ↔ ¬ tx.Stuck C w := by
  unfold Transaction.Stuck
  cases hdone : tx.done with
  | some d =>
    obtain ⟨_, _, _, _⟩ := tx
    cases hdone
    simp
  | none =>
    rw [exec_rollback nl tx w hdone]
    cases w.ctx with
    | some d => simp
    | none => simp [C.release_unlocks]

end

/-- **Failed spends and their locks.** For every locker that honours its contract and every point of
cancellation: when the operation has returned, its nonce is not locked by its lock any more,
exactly under the condition on the right. -/
theorem returned_unlocks_iff {nl : NonceLocker L} (C : Contract nl) (w : World L) :
    (∀ issuer credit req t l, ExchangeLocks nl issuer credit req w t l →
      (C.status (exec nl (exchangerExchange issuer credit req) w).2.locker credit.nonce.nonce ≠
          .locked t ↔
        ∀ sig, issuer.blindSign req = .ok sig →
          (nl.consume (w.ctxAt 1) credit.nonce t l).1 = none)) ∧
    (∀ tx : Transaction,
      C.status (exec nl tx.commit w).2.locker tx.credit.nonce.nonce ≠
        .locked tx.lockedNonce.ticket ↔ ¬ tx.Stuck C w) ∧
    (∀ tx : Transaction,
      C.status (exec nl tx.rollback w).2.locker tx.credit.nonce.nonce ≠
        .locked tx.lockedNonce.ticket ↔ ¬ tx.Stuck C w) :=
  ⟨fun _ _ _ _ _ h => exchange_unlocks_iff C h, fun tx => commit_unlocks_iff C tx w,
    fun tx => rollback_unlocks_iff C tx w⟩

/-- Without a cancellation, an exchange leaves its nonce unlocked. -/
theorem returned_unlocks_exchange :
    let n : Nonce := ⟨0, List.replicate 16 7, false⟩
    let credit : AnyCredit := .blinded ⟨⟨false, 5, by decide⟩, n, []⟩
    let req : BlindSignRequest := ⟨credit.value, []⟩
    let nl := (InMem.nonceLocker 0 (.ok (Vector.replicate 8 1))).strict
    let C := (InMem.contract 0 (.ok (Vector.replicate 8 1))).strict
    let w : World InMem.NonceLocker := ⟨.new, .new, [], none⟩
    ∃ t l, ExchangeLocks nl ⟨.accepting⟩ credit req w t l ∧
      C.status (exec nl (exchangerExchange ⟨.accepting⟩ credit req) w).2.locker n.nonce ≠
        .locked t := by
  intro n credit req nl C w
  have hlocks : ExchangeLocks nl ⟨.accepting⟩ credit req w _ _ := ⟨rfl, rfl, rfl⟩
  refine ⟨_, _, hlocks, ((returned_unlocks_iff C w).1 _ _ _ _ _ hlocks).2 fun _ _ => ?_⟩
  decide

/-- A `Consume` that fails in `Exchange`, and a context that is cancelled before `Commit` or
`Rollback`, leave the nonce locked: it cannot be locked again. -/
theorem failed_spends_strand :
    let n : Nonce := ⟨0, List.replicate 16 7, false⟩
    let credit : BlindedCredit := ⟨⟨false, 5, by decide⟩, n, []⟩
    let nl := (InMem.nonceLocker 0 (.ok (Vector.replicate 8 1))).strict
    let d : CtxDone := ⟨.var .canceled, .var .canceled⟩
    let begun := exec nl (beginTransaction ⟨.accepting⟩ credit) ⟨.new, .new, [], some (1, d)⟩
    let lockedAgain := fun l => (nl.checkAndLockNonce none n l).1
    let exchanged := exec nl (exchangerExchange ⟨.accepting⟩ (.blinded credit) ⟨credit.value, []⟩)
      ⟨.new, .new, [], some (1, d)⟩
    exchanged.1.isOk = false ∧ lockedAgain exchanged.2.locker = .error (.var .nonceLocked) ∧
      ∃ tx, begun.1 = .ok tx ∧
        (exec nl tx.commit begun.2).1.1 = some (.var .canceled) ∧
        lockedAgain (exec nl tx.commit begun.2).2.locker = .error (.var .nonceLocked) ∧
        (exec nl tx.rollback begun.2).1 = some (.var .canceled) ∧
        lockedAgain (exec nl tx.rollback begun.2).2.locker = .error (.var .nonceLocked) := by
  refine ⟨by decide, by decide, _, rfl, by decide, by decide, by decide, by decide⟩

end Anonpay
