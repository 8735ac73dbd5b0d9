import OpenPCC.Anonpay.BlindBank
import OpenPCC.Anonpay.Proof.Ledger

/-!
# The in-memory bank honours the contract

While no caller cancels its context, a call of the in-memory bank that fails leaves all balances as
they are, and one that succeeds changes the balance of its account only.
-/

namespace Anonpay

open Go World

theorem keyForAccount_inj {a a' : Bytes} (h : keyForAccount a = keyForAccount a') : a = a' :=
  List.append_cancel_right (Hex.encodeToString_inj h)

namespace InMem

variable {L : Type} {b : Bank L} {account : Bytes}

theorem balanceOf_insert (l : L) (stored : StoredAccount) (roundingMutations : List Int) :
    balanceOf ⟨l, ⟨b.ledger.accounts.insert (keyForAccount account) stored, roundingMutations⟩⟩ =
      Function.update (balanceOf b) account (int64 stored.balance) := by
  funext a
  by_cases ha : a = account
  · subst ha
    simp [balanceOf, Ledger.balance, Ledger.stored]
  · have hkey : keyForAccount a ≠ keyForAccount account := fun h => ha (keyForAccount_inj h)
    rw [Function.update_of_ne ha, balanceOf, Ledger.balance, Ledger.stored,
      AList.lookup_insert_ne hkey]
    rfl

variable (issuer : Issuer) (nl : Anonpay.NonceLocker L) (roundFunc : Int → Except Err Value)
  (d : Draw)

theorem lawful_withdrawBatch {transferID : Bytes} {reqs : List BlindSignRequest} {balance : Int}
    {signatures : List Bytes} {b' : Bank L}
    (h : (bank issuer nl roundFunc d).withdrawBatch transferID account reqs b =
      (.ok (balance, signatures), b')) :
    balance = int64 (balanceOf b account - batchAmount reqs) ∧
      balanceOf b' = Function.update (balanceOf b) account balance := by
  obtain ⟨e, he⟩ | ⟨sigs, sum, htotal, -, -, hr⟩ :=
    withdrawBatch_cases issuer b.ledger account reqs
  · simp [bank, he] at h
  · change sum = batchAmount reqs at htotal
    simp only [bank, hr, Prod.mk.injEq, Except.ok.injEq] at h
    obtain ⟨⟨rfl, rfl⟩, rfl⟩ := h
    refine ⟨?_, ?_⟩
    · rw [htotal, balanceOf, Int.sub_eq_add_neg, Int.sub_eq_add_neg, int64_int64_add]
    · rw [balanceOf_insert, int64_int64]

theorem deposit_bank (transferID account : Bytes) (credit : BlindedCredit) (b : Bank L) :
    let r := (bank issuer nl roundFunc d).deposit transferID account credit b
    let balance := int64 (b.ledger.balance account + credit.value.amountOrZero)
    (∃ e, r.1 = .error e ∧ balanceOf r.2 = balanceOf b) ∨
      (r.1 = .ok balance ∧ balanceOf r.2 = Function.update (balanceOf b) account balance) := by
  intro r balance
  obtain ⟨herr, hquiet, -⟩ | ⟨amount, hspends, hupdate, -, herr⟩ :=
    deposit_cases nl issuer account credit ⟨b.locker, b.ledger, [], none⟩
  · obtain ⟨e, he⟩ := Option.ne_none_iff_exists'.1 herr
    refine .inl ⟨e, ?_, ?_⟩
    · simp only [r, bank, he]
    · funext a
      simp only [r, bank, balanceOf, hquiet.1]
  · have hamount := Value.amountOrZero_eq hspends.1
    have hbalance := congrArg Prod.fst hupdate
    have hledger := congrArg Prod.snd hupdate
    simp only at hbalance hledger
    refine .inr ⟨?_, ?_⟩
    · simp only [r, bank, herr, hbalance, Ledger.updateBalance, balance, hamount]
      rfl
    · simp only [r, bank, hledger, Ledger.updateBalance]
      rw [balanceOf_insert, int64_int64, ← hamount]
      rfl

theorem lawful : (bank issuer nl roundFunc d).Lawful balanceOf where
  int64_balanceOf b account := int64_int64 _
  withdrawBatch_ok h := lawful_withdrawBatch issuer nl roundFunc d h
  withdrawBatch_error {_ account reqs b e b'} h := by
    obtain ⟨e', he⟩ | ⟨sigs, sum, -, -, -, hr⟩ := withdrawBatch_cases issuer b.ledger account reqs
    · simp only [bank, he, Prod.mk.injEq] at h
      rw [← h.2]
    · simp [bank, hr] at h
  withdrawFullUnblinded_ok {_ account b credit b'} h := by
    obtain ⟨e', he⟩ | ⟨credit', hpos, hmax, hr⟩ :=
      withdrawFullUnblinded_cases issuer roundFunc d b.ledger account
    · simp [bank, he] at h
    · simp only [bank, hr, Prod.mk.injEq] at h
      refine ⟨?_, ?_⟩
      · have hrange : maxAmount ≤ maxInt64 := by decide
        rw [balanceOf, Ledger.balance, int64_eq (by omega) (by omega)]
        exact hpos
      · rw [← h.2]
        exact balanceOf_insert b.locker _ _
  withdrawFullUnblinded_error {_ account b e b'} h := by
    obtain ⟨e', he⟩ | ⟨credit', -, -, hr⟩ :=
      withdrawFullUnblinded_cases issuer roundFunc d b.ledger account
    · simp only [bank, he, Prod.mk.injEq] at h
      rw [← h.2]
    · simp [bank, hr] at h
  deposit_ok {transferID account credit b balance b'} h := by
    obtain ⟨e, he, -⟩ | ⟨hok, hbalance⟩ :=
      deposit_bank issuer nl roundFunc d transferID account credit b
    · rw [h] at he
      cases he
    · rw [h] at hok hbalance
      cases hok
      exact ⟨(int64_int64_add _ _).symm, hbalance⟩
  deposit_error {transferID account credit b e b'} h := by
    obtain ⟨e, -, hbalance⟩ | ⟨hok, -⟩ :=
      deposit_bank issuer nl roundFunc d transferID account credit b
    · rw [h] at hbalance
      exact hbalance
    · rw [h] at hok
      cases hok
  exchange transferID credit request b := by
    have hquiet := exchange_quiet nl issuer credit request ⟨b.locker, b.ledger, [], none⟩
    funext a
    simp only [bank, balanceOf, hquiet.1]
  balance account b := ⟨fun n h => (Except.ok.inj h).symm, rfl⟩

end InMem

end Anonpay
