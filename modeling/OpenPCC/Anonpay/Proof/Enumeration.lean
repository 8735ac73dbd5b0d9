import OpenPCC.Anonpay.Proof.BlindBank

/-!
# Accounts cannot be enumerated

An account that does not exist behaves like one with a balance of zero. `Alike`: two banks have the
same locker and the same balances, where an account that does not exist has the balance 0. Alike
banks answer every call in the same way and are alike after it (`Alike.exec`), so no sequence of
calls tells them apart.
-/

namespace Anonpay

open Go

namespace Ledger

/-- Every account has the same balance. -/
def Alike (b b' : Ledger) : Prop := ∀ account, b.balance account = b'.balance account

variable {b b' : Ledger} {account : Bytes}

theorem balance_insert (accounts : AList fun _ : Bytes => StoredAccount) (roundings : List Int)
    (stored : StoredAccount) (a : Bytes) :
    balance ⟨accounts.insert (keyForAccount account) stored, roundings⟩ a =
      if a = account then stored.balance else balance ⟨accounts, roundings⟩ a := by
  split
  · next h =>
    subst h
    simp [balance, Ledger.stored]
  · next h =>
    have hkey : keyForAccount a ≠ keyForAccount account := fun he => h (keyForAccount_inj he)
    simp [balance, Ledger.stored, AList.lookup_insert_ne hkey]

theorem Alike.insert (h : b.Alike b') {stored stored' : StoredAccount}
    (hbalance : stored.balance = stored'.balance) (roundings roundings' : List Int) :
    Alike ⟨b.accounts.insert (keyForAccount account) stored, roundings⟩
      ⟨b'.accounts.insert (keyForAccount account) stored', roundings'⟩ := by
  intro a
  rw [balance_insert, balance_insert, hbalance]
  split
  · rfl
  · exact h a

theorem Alike.updateBalance (h : b.Alike b') (account : Bytes) (amount : Int)
    (credit : BlindedCredit) :
    (b.updateBalance account amount credit).1 = (b'.updateBalance account amount credit).1 ∧
      (b.updateBalance account amount credit).2.Alike
        (b'.updateBalance account amount credit).2 := by
  have hbalance : (b.stored account).balance = (b'.stored account).balance := h account
  simp only [Ledger.updateBalance, hbalance]
  refine ⟨trivial, h.insert ?_ _ _⟩
  rfl

/-! ## Withdrawals -/

theorem Alike.withdrawBatch (h : b.Alike b') (issuer : Issuer) (account : Bytes)
    (reqs : List BlindSignRequest) :
    (b.withdrawBatch issuer account reqs).1 = (b'.withdrawBatch issuer account reqs).1 ∧
      (b.withdrawBatch issuer account reqs).2.Alike (b'.withdrawBatch issuer account reqs).2 := by
  obtain ⟨-, e, he⟩ | ⟨-, sum, sigs, -, -, hform⟩ := withdrawBatch_form issuer account reqs
  · rw [he, he]
    exact ⟨rfl, h⟩
  · rw [hform, hform, h account]
    split
    · exact ⟨rfl, h⟩
    · refine ⟨rfl, h.insert ?_ _ _⟩
      rfl

theorem Alike.withdrawFullUnblinded (h : b.Alike b') (issuer : Issuer)
    (roundFunc : Int → Except Err Value) (d : Draw) (account : Bytes) :
    (b.withdrawFullUnblinded issuer roundFunc d account).1 =
        (b'.withdrawFullUnblinded issuer roundFunc d account).1 ∧
      (b.withdrawFullUnblinded issuer roundFunc d account).2.Alike
        (b'.withdrawFullUnblinded issuer roundFunc d account).2 := by
  rw [withdrawFullUnblinded_form, withdrawFullUnblinded_form, h account]
  split
  · exact ⟨rfl, h⟩
  · refine ⟨rfl, h.insert ?_ _ _⟩
    rfl

end Ledger

/-! ## Runs -/

variable {L : Type}

/-- Two states of an operation that differ in the ledger only, which are alike. -/
structure World.Alike (w w' : World L) : Prop where
  locker : w.locker = w'.locker
  ledger : w.ledger.Alike w'.ledger
  calls : w.calls = w'.calls
  cancel : w.cancel = w'.cancel

theorem World.Alike.exec {α : Type} {w w' : World L} (h : w.Alike w') (nl : NonceLocker L)
    (p : Op α) :
    (World.exec nl p w).1 = (World.exec nl p w').1 ∧
      (World.exec nl p w).2.Alike (World.exec nl p w').2 := by
  refine Prog.run_rel (S := World.Alike) ?_ p h
  rintro e ⟨l, b, calls, cancel⟩ ⟨l', b', calls', cancel'⟩ ⟨rfl, hb, rfl, rfl⟩
  cases e with
  | updateBalance account amount credit =>
    obtain ⟨hreply, hafter⟩ := hb.updateBalance account amount credit
    exact ⟨hreply, rfl, hafter, rfl, rfl⟩
  | _ => exact ⟨rfl, rfl, hb, rfl, rfl⟩

structure Bank.Alike (b b' : Bank L) : Prop where
  locker : b.locker = b'.locker
  ledger : b.ledger.Alike b'.ledger

section

variable (issuer : Issuer) (nl : NonceLocker L)

theorem Bank.Alike.exec {b b' : Bank L} (h : b.Alike b') (op : BankOp) :
    (op.exec issuer nl b).1 = (op.exec issuer nl b').1 ∧
      (op.exec issuer nl b).2.1 = (op.exec issuer nl b').2.1 ∧
      (op.exec issuer nl b).2.2.Alike (op.exec issuer nl b').2.2 := by
  have hworld (cancel : Option (Nat × CtxDone)) :
      World.Alike ⟨b.locker, b.ledger, [], cancel⟩ ⟨b'.locker, b'.ledger, [], cancel⟩ :=
    ⟨h.locker, h.ledger, rfl, rfl⟩
  cases op with
  | deposit account credit cancel =>
    obtain ⟨hreply, hafter⟩ := (hworld cancel).exec nl (Anonpay.deposit issuer account credit)
    simp only [BankOp.exec, hreply]
    exact ⟨trivial, hafter.calls, hafter.locker, hafter.ledger⟩
  | withdrawBatch account reqs =>
    obtain ⟨hreply, hafter⟩ := h.ledger.withdrawBatch issuer account reqs
    exact ⟨congrArg BankReply.withdrawBatch hreply, rfl, h.locker, hafter⟩
  | withdrawFullUnblinded account roundFunc d =>
    obtain ⟨hreply, hafter⟩ := h.ledger.withdrawFullUnblinded issuer roundFunc d account
    exact ⟨congrArg BankReply.withdrawFullUnblinded hreply, rfl, h.locker, hafter⟩
  | exchange credit request cancel =>
    obtain ⟨hreply, hafter⟩ := (hworld cancel).exec nl (Anonpay.exchange issuer credit request)
    simp only [BankOp.exec, hreply]
    exact ⟨trivial, hafter.calls, hafter.locker, hafter.ledger⟩
  | balance account => exact ⟨congrArg BankReply.balance (h.ledger account), rfl, h⟩

theorem Bank.Alike.run {b b' : Bank L} (h : b.Alike b') (history : List BankEvent)
    (ops : List BankOp) :
    (BankRun.run issuer nl ⟨b, history⟩ ops).bank.Alike
        (BankRun.run issuer nl ⟨b', history⟩ ops).bank ∧
      (BankRun.run issuer nl ⟨b, history⟩ ops).history =
        (BankRun.run issuer nl ⟨b', history⟩ ops).history := by
  induction ops generalizing b b' history with
  | nil => exact ⟨h, rfl⟩
  | cons op ops ih =>
    obtain ⟨hreply, hcalls, hafter⟩ := h.exec issuer nl op
    simp only [BankRun.run, List.foldl_cons, BankRun.step, hreply, hcalls]
    exact ih hafter _

/-- A bank without an account and a bank in which it has the balance 0, with any history, give the
same replies to every sequence of calls and end with the same balances. -/
theorem accounts_not_enumerable (locker : L) (b : Ledger) (account : Bytes) (mutations : List Int)
    (habsent : b.accounts.lookup (keyForAccount account) = none) (ops : List BankOp) :
    let emptied : Ledger :=
      { b with accounts := b.accounts.insert (keyForAccount account) ⟨0, mutations⟩ }
    let r := BankRun.run issuer nl ⟨⟨locker, b⟩, []⟩ ops
    let r' := BankRun.run issuer nl ⟨⟨locker, emptied⟩, []⟩ ops
    r.history = r'.history ∧ ∀ a, r.bank.ledger.balance a = r'.bank.ledger.balance a := by
  intro emptied r r'
  have halike : b.Alike emptied := by
    intro a
    rw [Ledger.balance_insert]
    split
    · next h =>
      subst h
      rw [Ledger.balance, Ledger.stored, habsent]
      rfl
    · rfl
  have hbanks : Bank.Alike ⟨locker, b⟩ ⟨locker, emptied⟩ := ⟨rfl, halike⟩
  obtain ⟨hbank, hhistory⟩ := hbanks.run issuer nl [] ops
  exact ⟨hhistory, hbank.ledger⟩

end

/-- A full withdrawal, a batch, a deposit and a balance on a new bank and on one that has emptied
the account. -/
theorem accounts_not_enumerable_emptied :
    let five : BlindedCredit := ⟨⟨false, 5, by decide⟩, ⟨0, List.replicate 16 7, false⟩, []⟩
    let ops : List BankOp :=
      [.withdrawFullUnblinded [1] (fun _ => .ok ⟨false, 4, by decide⟩)
          ⟨.ok ([], []), .ok ⟨0, List.replicate 16 9, false⟩⟩,
        .withdrawBatch [1] [⟨⟨false, 2, by decide⟩, [9]⟩], .deposit [1] five none, .balance [1]]
    let emptied : Ledger := { Ledger.new with
      accounts := Ledger.new.accounts.insert (keyForAccount [1]) ⟨0, [3, -3]⟩ }
    let nl := InMem.nonceLocker 0 (.ok (Vector.replicate 8 1))
    Ledger.new.accounts.lookup (keyForAccount [1]) = none ∧
      (BankRun.run ⟨.accepting⟩ nl ⟨⟨.new, .new⟩, []⟩ ops).history =
        (BankRun.run ⟨.accepting⟩ nl ⟨⟨.new, emptied⟩, []⟩ ops).history :=
  ⟨rfl, (accounts_not_enumerable ⟨.accepting⟩ (InMem.nonceLocker 0 (.ok (Vector.replicate 8 1)))
    .new .new [1] [3, -3] rfl _).1⟩

end Anonpay
