import OpenPCC.Anonpay.Proof.Exec
import OpenPCC.Router.HttpHandler

/-!
# Refunds

`commitWithUnspend_iff` says when `CommitWithUnspend` issues a refund and that the refund has the
value it was given; nothing compares that value with the credit of the transaction. So the refund
stays within the credit exactly when the value does (`refund_bounded_iff`). The router adds no
bound (`eofCallback_refund`).
-/

namespace Router

open Go Anonpay Prog World

variable {L : Type}

/-- The transaction is open and its credit is consumed, and a credit of value `unspend` is
issued. -/
def Issues (nl : NonceLocker L) (tx : Transaction) (d : Draw) (unspend : Value) (w : World L)
    (refund : UnblindedCredit) : Prop :=
  tx.done = none ∧ w.ctx = none ∧
    (nl.consume (w.ctxAt 1) tx.credit.nonce tx.lockedNonce.ticket w.locker).1 = none ∧
    tx.issuer.issueUnblindedCredit d unspend = .ok refund

section
variable (nl : NonceLocker L) (tx : Transaction) (w : World L)

theorem commit_issuer : (exec nl tx.commit w).1.2.issuer = tx.issuer := by
  cases hdone : tx.done with
  | some d =>
    obtain ⟨_, _, _, _⟩ := tx
    cases hdone
    rfl
  | none =>
    simp only [exec_commit nl tx w hdone]
    split
    · rfl
    · split <;> rfl

theorem commit_eq_none_iff :
    (exec nl tx.commit w).1.1 = none ↔ tx.done = none ∧ w.ctx = none ∧
      (nl.consume (w.ctxAt 1) tx.credit.nonce tx.lockedNonce.ticket w.locker).1 = none := by
  cases hdone : tx.done with
  | some d =>
    obtain ⟨_, _, _, _⟩ := tx
    cases hdone
    simp
  | none =>
    simp only [exec_commit nl tx w hdone]
    cases w.ctx with
    | some d => simp
    | none =>
      cases nl.consume (w.ctxAt 1) tx.credit.nonce tx.lockedNonce.ticket w.locker with
      | mk r l => cases r <;> simp

theorem refund_eq_ok_iff {d : Draw} {unspend : Value} {err : Option Err}
    {refund : UnblindedCredit} :
    tx.refund d unspend err = .ok refund ↔
      err = none ∧ tx.issuer.issueUnblindedCredit d unspend = .ok refund := by
  unfold Transaction.refund
  cases err with
  | some e => simp
  | none => cases tx.issuer.issueUnblindedCredit d unspend <;> simp

theorem commitWithUnspend_iff {d : Draw} {unspend : Value} {refund : UnblindedCredit} :
    (exec nl (tx.commitWithUnspend d unspend) w).1.1 = .ok refund ↔
      Issues nl tx d unspend w refund := by
  unfold Transaction.commitWithUnspend
  rw [exec_bind]
  change (exec nl tx.commit w).1.2.refund d unspend (exec nl tx.commit w).1.1 = .ok refund ↔ _
  rw [refund_eq_ok_iff, commit_eq_none_iff, commit_issuer, Issues, and_assoc, and_assoc]

/-- The refund in the client's trailer is the one issued for the value of the node's trailer. -/
theorem eofCallback_refund {codec : TextCodec} {marshalText : UnblindedCredit → Except Err Bytes}
    {d : Draw} {val : Bytes} {refund : UnblindedCredit} {text : Bytes} :
    (exec nl (eofCallback codec marshalText tx d val) w).1.1 = .ok (some (refund, text)) ↔
      val ≠ [] ∧ marshalText refund = .ok text ∧
        ∃ value, unmarshalText codec val = .ok value ∧ Issues nl tx d value w refund := by
  unfold eofCallback
  by_cases hval : val = []
  · simp only [hval, ↓reduceIte, exec_bind]
    cases (exec nl tx.commit w).1 with
    | mk err tx => cases err <;> simp
  · simp only [hval, ↓reduceIte]
    cases unmarshalText codec val with
    | error e => simp
    | ok value =>
      simp only [exec_bind, Except.ok.injEq, exists_eq_left', ← commitWithUnspend_iff]
      cases (exec nl (tx.commitWithUnspend d value) w).1 with
      | mk cred tx =>
        cases cred with
        | error e => simp
        | ok cred =>
          cases hm : marshalText cred with
          | error e =>
            simp only [hm, pure_eq, exec_ret, reduceCtorEq, false_iff, not_and]
            rintro - ht ⟨⟩
            simp [hm] at ht
          | ok txt =>
            simp only [hm, pure_eq, exec_ret, Except.ok.injEq, Option.some.injEq, Prod.mk.injEq]
            constructor
            · rintro ⟨rfl, rfl⟩
              exact ⟨hval, hm, rfl⟩
            · rintro ⟨-, ht, rfl⟩
              exact ⟨rfl, Except.ok.inj (hm.symm.trans ht)⟩

end

/-- **Refunds create no value** exactly when the value handed to `CommitWithUnspend` is at most the
credit's amount `a` whenever a refund is issued; the same for the value of the router's trailer. -/
theorem refund_bounded_iff (nl : NonceLocker L) (tx : Transaction) (w : World L) (d : Draw)
    (a : Int) :
    (∀ v, (∀ refund, (exec nl (tx.commitWithUnspend d v) w).1.1 = .ok refund →
        ∃ b, refund.value.amount = .ok b ∧ b ≤ a) ↔
      ∀ refund, Issues nl tx d v w refund → ∃ b, v.amount = .ok b ∧ b ≤ a) ∧
    ∀ codec marshalText val,
      (∀ refund text,
        (exec nl (eofCallback codec marshalText tx d val) w).1.1 = .ok (some (refund, text)) →
        ∃ b, refund.value.amount = .ok b ∧ b ≤ a) ↔
      ∀ v refund text, val ≠ [] → unmarshalText codec val = .ok v → Issues nl tx d v w refund →
        marshalText refund = .ok text → ∃ b, v.amount = .ok b ∧ b ≤ a := by
  have hvalue : ∀ {v refund}, Issues nl tx d v w refund → refund.value = v :=
    fun h => Issuer.issueUnblindedCredit_value h.2.2.2
  refine ⟨fun v => ?_, fun codec marshalText val => ?_⟩
  · constructor
    · exact fun h refund hi => hvalue hi ▸ h refund ((commitWithUnspend_iff nl tx w).2 hi)
    · intro h refund hr
      have hi := (commitWithUnspend_iff nl tx w).1 hr
      exact hvalue hi ▸ h refund hi
  · constructor
    · intro h v refund text hne hv hi ht
      exact hvalue hi ▸ h refund text ((eofCallback_refund nl tx w).2 ⟨hne, ht, v, hv, hi⟩)
    · intro h refund text hr
      obtain ⟨hne, ht, v, hv, hi⟩ := (eofCallback_refund nl tx w).1 hr
      exact hvalue hi ▸ h v refund text hne hv hi ht

/-- A credit of 5 units is accepted; the node's trailer asks for 33285996544 units back, or for a
special credit, and gets them. -/
theorem refund_exceeds_credit :
    let credit : BlindedCredit := ⟨⟨false, 5, by decide⟩, ⟨0, List.replicate 16 7, false⟩, []⟩
    let nl := InMem.nonceLocker 0 (.ok (Vector.replicate 8 1))
    let d : Draw := ⟨.ok ([], []), .ok ⟨0, List.replicate 16 9, false⟩⟩
    let begun := exec nl (beginTransaction ⟨.accepting⟩ credit) ⟨.new, .new, [], none⟩
    let trailer := fun tx val =>
      (exec nl (eofCallback ⟨.ok, fun b => .ok (some b)⟩ (fun _ => .ok []) tx d val) begun.2).1.1
    credit.value.amount = .ok 5 ∧ ∃ tx, begun.1 = .ok tx ∧
      (∃ refund, trailer tx [2, 255] = .ok (some (refund, [])) ∧
        refund.value.amount = .ok 33285996544) ∧
      ∃ refund, trailer tx [1, 0] = .ok (some (refund, [])) ∧ refund.value.shift = true := by
  exact ⟨by decide, _, rfl, ⟨_, rfl, by decide⟩, _, rfl, by decide⟩

end Router
