import OpenPCC.Anonpay.Proof.BlindBank
import OpenPCC.Go.Int64
import OpenPCC.Lib.Trace
import OpenPCC.Wallet.Account

/-!
# When the local account mirrors the bank

The specs of the calls of `BlindBank` and `Account` over a bank that honours its contract
(`withdrawBatch_spec`, `depositLoop_spec`, `exchange_spec`, `Account.withdraw_full_spec`,
`Account.withdraw_batch_spec`, `Account.deposit_spec`) and of any call (`Owned.exec_spec`). A call
that succeeds leaves the account with the balance at the bank. One that fails does so too, unless
the bank had already changed the balance when it failed (`Owned.Interrupted`): then the local
balance is stale.
-/

namespace Wallet

open Go Anonpay

variable {B : Type}

/-! ## New credits -/

theorem beginBlindedCredit_value {payee : Issuer} {d : Draw} {value : Value} {s : BlindSignState}
    (h : beginBlindedCredit payee d value = .ok s) : s.value = value := by
  rw [beginBlindedCredit] at h
  split at h
  · cases h
  · cases h
    rfl

theorem finalize_value {payee : Issuer} {s : BlindSignState} {blindSignature : Bytes}
    {credit : BlindedCredit} (h : s.finalize payee blindSignature = .ok credit) :
    credit.value = s.value := by
  rw [BlindSignState.finalize] at h
  split at h
  · cases h
  · cases h
    rfl

theorem beginCredits_ok {payee : Issuer} {value : Value} {ds : List Draw}
    {states : List BlindSignState} (h : beginCredits payee value ds = .ok states) :
    states.map (·.value) = List.replicate ds.length value := by
  induction ds generalizing states with
  | nil =>
    cases h
    rfl
  | cons d ds ih =>
    rw [beginCredits] at h
    split at h
    · cases h
    · next s hs =>
      split at h
      · cases h
      · next rest hrest =>
        cases h
        rw [List.map_cons, ih hrest, beginBlindedCredit_value hs]
        rfl

theorem finalizeCredits_ok {payee : Issuer} {l : List (BlindSignState × Bytes)}
    {credits : List BlindedCredit} (h : finalizeCredits payee l = .ok credits) :
    credits.map (·.value) = l.map (·.1.value) := by
  induction l generalizing credits with
  | nil =>
    cases h
    rfl
  | cons x l ih =>
    obtain ⟨s, blindSignature⟩ := x
    rw [finalizeCredits] at h
    split at h
    · cases h
    · next credit hcredit =>
      split at h
      · cases h
      · next rest hrest =>
        cases h
        rw [List.map_cons, List.map_cons, ih hrest, finalize_value hcredit]

/-! ## The bank -/

namespace BlindBank

variable {bb : BlindBank B} {balanceOf : B → Bytes → Int} {transferID account : Bytes} {b b' : B}

theorem finalizeBatch_ok {credits : Int} {state : List BlindSignState}
    {blindSignatures : List Bytes} {withdrawn : List BlindedCredit}
    (h : bb.finalizeBatch credits state blindSignatures = .ok withdrawn) :
    withdrawn.map (·.value) = state.map (·.value) := by
  rw [finalizeBatch] at h
  split at h
  · cases h
  · next hlen =>
    have hmap : ((state.zip blindSignatures).map (·.1)).map (·.value) = state.map (·.value) := by
      rw [List.map_fst_zip (by omega)]
    rw [finalizeCredits_ok h, ← hmap, List.map_map]
    rfl

theorem batchAmount_eq {amount : Value} {state : List BlindSignState} {n : Nat}
    (h : state.map (·.value) = List.replicate n amount) :
    batchAmount (state.map (·.request)) = n * amount.amountOrZero := by
  have hmap : (state.map (·.request)).map (·.value.amountOrZero) =
      (state.map (·.value)).map (·.amountOrZero) := by
    rw [List.map_map, List.map_map]
    rfl
  rw [batchAmount, hmap, h, List.map_replicate, List.sum_replicate, nsmul_eq_mul]

theorem withdrawBatch_cases (bb : BlindBank B) (transferID account : Bytes) (draw : Nat → Draw)
    (credits : Int) (amount : Value) (b : B) :
    let states := beginCredits bb.payee amount ((List.range credits.toNat).map draw)
    let r := bb.withdrawBatch transferID account draw credits amount b
    (∃ e, r = (.error e, b) ∧ ¬ (0 < credits ∧ ∃ state, states = .ok state)) ∨
      0 < credits ∧ ∃ state, states = .ok state ∧
        ((∃ e e' b', r = (.error e, b') ∧
          bb.bank.withdrawBatch transferID account (state.map (·.request)) b = (.error e', b')) ∨
        ∃ newBalance blindSignatures b',
          bb.bank.withdrawBatch transferID account (state.map (·.request)) b =
            (.ok (newBalance, blindSignatures), b') ∧
          ((∃ e, r = (.error e, b') ∧ bb.finalizeBatch credits state blindSignatures = .error e) ∨
          ∃ withdrawn, r = (.ok (newBalance, withdrawn), b') ∧
            bb.finalizeBatch credits state blindSignatures = .ok withdrawn)) := by
  intro states r
  by_cases hpos : credits ≤ 0
  · exact .inl ⟨_, if_pos hpos, fun h => absurd h.1 (by omega)⟩
  · have hr : r = bb.withdrawBatch transferID account draw credits amount b := rfl
    rw [withdrawBatch, if_neg hpos] at hr
    cases hstate : beginCredits bb.payee amount ((List.range credits.toNat).map draw) with
    | error e =>
      rw [hstate] at hr
      refine .inl ⟨e, hr, fun ⟨_, state, h⟩ => ?_⟩
      rw [show states = _ from hstate] at h
      cases h
    | ok state =>
      rw [hstate] at hr
      simp only at hr
      refine .inr ⟨by omega, state, hstate, ?_⟩
      cases hbank : bb.bank.withdrawBatch transferID account (state.map (·.request)) b with
      | mk res b' =>
        rw [hbank] at hr
        cases res with
        | error e => exact .inl ⟨_, e, b', hr, rfl⟩
        | ok res =>
          obtain ⟨newBalance, blindSignatures⟩ := res
          refine .inr ⟨newBalance, blindSignatures, b', rfl, ?_⟩
          simp only at hr
          cases hfinal : bb.finalizeBatch credits state blindSignatures with
          | error e =>
            rw [hfinal] at hr
            exact .inl ⟨e, hr, rfl⟩
          | ok withdrawn =>
            rw [hfinal] at hr
            exact .inr ⟨withdrawn, hr, rfl⟩

theorem withdrawBatch_spec (L : bb.bank.Lawful balanceOf) (transferID account : Bytes)
    (draw : Nat → Draw) (credits : Int) (amount : Value) (b : B) :
    let r := bb.withdrawBatch transferID account draw credits amount b
    let balance := int64 (balanceOf b account - credits * amount.amountOrZero)
    (∃ e, r.1 = .error e ∧ balanceOf r.2 = balanceOf b ∧
        ¬ bb.Unfinalized transferID account draw credits amount b) ∨
      (∃ e, r.1 = .error e ∧ balanceOf r.2 = Function.update (balanceOf b) account balance ∧
        bb.Unfinalized transferID account draw credits amount b) ∨
      ∃ withdrawn, r.1 = .ok (balance, withdrawn) ∧
        balanceOf r.2 = Function.update (balanceOf b) account balance ∧
        withdrawn.map (·.value) = List.replicate credits.toNat amount ∧ 0 < credits ∧
        ¬ bb.Unfinalized transferID account draw credits amount b := by
  intro r balance
  obtain ⟨e, hr, hnone⟩ | ⟨hpos, state, hstate, hcases⟩ :=
    withdrawBatch_cases bb transferID account draw credits amount b
  · refine .inl ⟨e, congrArg Prod.fst hr, by rw [congrArg Prod.snd hr], ?_⟩
    rintro ⟨hpos, state, -, -, -, -, hstate, -⟩
    exact hnone ⟨hpos, state, hstate⟩
  · have hamount : batchAmount (state.map (·.request)) = credits * amount.amountOrZero := by
      have hvalues := beginCredits_ok hstate
      rw [List.length_map, List.length_range] at hvalues
      rw [batchAmount_eq hvalues, Int.toNat_of_nonneg hpos.le]
    obtain ⟨e, e', b', hr, hbank⟩ | ⟨newBalance, blindSignatures, b', hbank, hfinal⟩ := hcases
    · refine .inl ⟨e, congrArg Prod.fst hr, ?_, ?_⟩
      · rw [congrArg Prod.snd hr]
        exact L.withdrawBatch_error hbank
      · rintro ⟨-, state', newBalance, sigs, b₁, e₁, hstate', hbank', -⟩
        rw [hstate, Except.ok.injEq] at hstate'
        rw [← hstate', hbank] at hbank'
        cases hbank'
    · obtain ⟨hbalance, hafter⟩ := L.withdrawBatch_ok hbank
      rw [hamount] at hbalance
      subst hbalance
      obtain ⟨e, hr, hfail⟩ | ⟨withdrawn, hr, hok⟩ := hfinal
      · refine .inr (.inl ⟨e, congrArg Prod.fst hr, ?_, hpos, state, _, _, _, e, hstate, hbank,
          hfail⟩)
        rw [congrArg Prod.snd hr]
        exact hafter
      · refine .inr (.inr ⟨withdrawn, congrArg Prod.fst hr, ?_, ?_, hpos, ?_⟩)
        · rw [congrArg Prod.snd hr]
          exact hafter
        · rw [finalizeBatch_ok hok, beginCredits_ok hstate, List.length_map, List.length_range]
        · rintro ⟨-, state', newBalance, sigs, b₁, e₁, hstate', hbank', hfail⟩
          rw [hstate, Except.ok.injEq] at hstate'
          rw [← hstate', hbank] at hbank'
          cases hbank'
          rw [← hstate', hok] at hfail
          cases hfail

theorem update_int64_balanceOf (L : bb.bank.Lawful balanceOf) (account : Bytes) :
    Function.update (balanceOf b) account (int64 (balanceOf b account + 0)) = balanceOf b := by
  rw [add_zero, L.int64_balanceOf, Function.update_eq_self]

/-- After the loop of `Deposit` the credits that were accepted are on the account, and it fails if
these are not all. -/
theorem depositLoop_spec (L : bb.bank.Lawful balanceOf) (transferID account : Bytes)
    (lastBalance : Int) (credits : List BlindedCredit) (b : B) :
    let r := bb.depositLoop transferID account lastBalance credits b
    let accepted := bb.accepted transferID account credits b
    let balance := int64 (balanceOf b account + totalAmount accepted)
    balanceOf r.2 = Function.update (balanceOf b) account balance ∧
      ((∃ e, r.1 = .error e) ∧ accepted ≠ credits ∨
        r.1 = .ok (if credits = [] then lastBalance else balance) ∧ accepted = credits) := by
  induction credits generalizing lastBalance b with
  | nil => exact ⟨(update_int64_balanceOf L account).symm, .inr ⟨rfl, rfl⟩⟩
  | cons cred credits ih =>
    cases hbank : bb.bank.deposit transferID account cred b with
    | mk res b₁ =>
      cases res with
      | error e =>
        simp only [depositLoop, accepted, hbank]
        refine ⟨?_, .inl ⟨⟨e, rfl⟩, (List.cons_ne_nil _ _).symm⟩⟩
        rw [L.deposit_error hbank]
        exact (update_int64_balanceOf L account).symm
      | ok balance =>
        obtain ⟨hbalance, hafter⟩ := L.deposit_ok hbank
        obtain ⟨hrest, hcases⟩ := ih balance b₁
        have htotal : ∀ rest, int64 (balanceOf b₁ account + totalAmount rest) =
            int64 (balanceOf b account + totalAmount (cred :: rest)) := by
          intro rest
          rw [hafter, Function.update_self, hbalance, int64_int64_add, totalAmount, totalAmount,
            List.map_cons, List.sum_cons, add_assoc]
        simp only [depositLoop, accepted, hbank]
        refine ⟨?_, ?_⟩
        · rw [hrest, hafter, Function.update_idem, ← htotal, hafter]
        · obtain ⟨herr, hne⟩ | ⟨hok, hall⟩ := hcases
          · exact .inl ⟨herr, fun h => hne (List.tail_eq_of_cons_eq h)⟩
          · refine .inr ⟨?_, by rw [hall]⟩
            rw [hok, if_neg (List.cons_ne_nil _ _), ← htotal]
            split
            · next hnil =>
              rw [hall, hnil, totalAmount, List.map_nil, List.sum_nil, add_zero, hafter,
                Function.update_self, hbalance, int64_int64]
            · rfl

theorem exchange_spec (L : bb.bank.Lawful balanceOf) (transferID : Bytes) (d : Draw)
    (credit : AnyCredit) (b : B) :
    balanceOf (bb.exchange transferID d credit b).2 = balanceOf b ∧
      ∀ exchanged, (bb.exchange transferID d credit b).1 = .ok exchanged →
        exchanged.value = credit.value := by
  rw [exchange]
  split
  · exact ⟨rfl, fun _ h => by cases h⟩
  · next s hs =>
    have hbalance := L.exchange transferID credit s.request b
    split
    · next hbank =>
      rw [hbank] at hbalance
      exact ⟨hbalance, fun _ h => by cases h⟩
    · next hbank =>
      rw [hbank] at hbalance
      split
      · exact ⟨hbalance, fun _ h => by cases h⟩
      · next exchanged hfinal =>
        refine ⟨hbalance, fun _ h => ?_⟩
        rw [← Except.ok.inj h, finalize_value hfinal, beginBlindedCredit_value hs]

end BlindBank

/-! ## The account -/

namespace Account

variable {bb : BlindBank B} {balanceOf : B → Bytes → Int} {transferID : Bytes} {b : B}

theorem exchangeUnblinded_spec (L : bb.bank.Lawful balanceOf) (env : WithdrawEnv)
    (credit : UnblindedCredit) (b : B) :
    balanceOf (exchangeUnblinded bb env credit b).2 = balanceOf b := by
  rw [exchangeUnblinded]
  split
  · rfl
  · have hbalance := (BlindBank.exchange_spec L [] (env.draw 0) (.unblinded credit) b).1
    split
    · next hex =>
      rw [hex] at hbalance
      exact hbalance
    · next hex =>
      rw [hex] at hbalance
      exact hbalance

theorem withdraw_full_spec (L : bb.bank.Lawful balanceOf) (transferID : Bytes) (a : Account)
    (env : WithdrawEnv) (b : B) :
    let r := a.withdraw bb transferID env fullWithdrawal b
    (∃ e, r.1 = .error e ∧ r.2.1 = a ∧ balanceOf r.2.2 = balanceOf b ∧
        ¬ a.Unexchanged bb transferID env b) ∨
      0 < balanceOf b a.token ∧ balanceOf r.2.2 = Function.update (balanceOf b) a.token 0 ∧
        ((∃ e, r.1 = .error e ∧ r.2.1 = a ∧ a.Unexchanged bb transferID env b) ∨
        ∃ credit, r.1 = .ok ([credit], int64 (credit.value.amountOrZero - a.balance)) ∧
          r.2.1 = { a with balance := 0 } ∧ ¬ a.Unexchanged bb transferID env b) := by
  intro r
  have hr : r = a.withdraw bb transferID env fullWithdrawal b := rfl
  rw [withdraw, if_pos rfl] at hr
  cases hbank : bb.bank.withdrawFullUnblinded transferID a.token b with
  | mk res b₁ =>
    rw [hbank] at hr
    cases res with
    | error e =>
      rw [hr]
      refine .inl ⟨_, rfl, rfl, L.withdrawFullUnblinded_error hbank, ?_⟩
      rintro ⟨credit, b', e', b'', h, -⟩
      rw [hbank] at h
      cases h
    | ok unblinded =>
      obtain ⟨hpos, hafter⟩ := L.withdrawFullUnblinded_ok hbank
      have hex := exchangeUnblinded_spec L env unblinded b₁
      simp only at hr
      cases hexchange : exchangeUnblinded bb env unblinded b₁ with
      | mk res b₂ =>
        rw [hexchange] at hr hex
        rw [hafter] at hex
        refine .inr ⟨hpos, ?_⟩
        cases res with
        | error e =>
          rw [hr]
          exact ⟨hex, .inl ⟨_, rfl, rfl, unblinded, b₁, e, b₂, hbank, hexchange⟩⟩
        | ok credit =>
          rw [hr]
          refine ⟨hex, .inr ⟨credit, rfl, rfl, ?_⟩⟩
          rintro ⟨credit', b', e', b'', h, h'⟩
          rw [hbank] at h
          cases h
          rw [hexchange] at h'
          cases h'

theorem withdraw_batch_spec (L : bb.bank.Lawful balanceOf) (transferID : Bytes) (a : Account)
    (env : WithdrawEnv) {w : Withdrawal} (hw : w ≠ fullWithdrawal) (b : B) :
    let r := a.withdraw bb transferID env w b
    let balance := int64 (balanceOf b a.token - w.credits * w.amount.amountOrZero)
    let unfinalized := 0 ≤ int64 (a.balance - int64 (w.credits * w.amount.amountOrZero)) ∧
      bb.Unfinalized transferID a.token env.draw w.credits w.amount b
    (∃ e, r.1 = .error e ∧ r.2.1 = a ∧ balanceOf r.2.2 = balanceOf b ∧ ¬ unfinalized) ∨
      balanceOf r.2.2 = Function.update (balanceOf b) a.token balance ∧
        ((∃ e, r.1 = .error e ∧ r.2.1 = a ∧ unfinalized) ∨
        ∃ credits, r.1 = .ok (credits, 0) ∧ r.2.1 = { a with balance } ∧
          credits.map (·.value) = List.replicate w.credits.toNat w.amount ∧ 0 < w.credits ∧
          ¬ unfinalized) := by
  intro r balance unfinalized
  have hr : r = a.withdraw bb transferID env w b := rfl
  rw [withdraw, if_neg hw] at hr
  simp only at hr
  by_cases hlow : int64 (a.balance - int64 (w.credits * w.amount.amountOrZero)) < 0
  · rw [if_pos hlow] at hr
    rw [hr]
    exact .inl ⟨_, rfl, rfl, rfl, fun h => absurd h.1 (by omega)⟩
  · rw [if_neg hlow] at hr
    have hspec :=
      BlindBank.withdrawBatch_spec L transferID a.token env.draw w.credits w.amount b
    cases hbatch : bb.withdrawBatch transferID a.token env.draw w.credits w.amount b with
    | mk res b₁ =>
      rw [hbatch] at hr hspec
      obtain ⟨e, he, hafter, hnot⟩ | ⟨e, he, hafter, htorn⟩ |
        ⟨credits, hok, hafter, hvalues, hpos, hnot⟩ := hspec
      · simp only at he
        subst he
        rw [hr]
        exact .inl ⟨_, rfl, rfl, hafter, fun h => hnot h.2⟩
      · simp only at he
        subst he
        rw [hr]
        exact .inr ⟨hafter, .inl ⟨_, rfl, rfl, by omega, htorn⟩⟩
      · simp only at hok
        subst hok
        rw [hr]
        exact .inr ⟨hafter, .inr ⟨credits, rfl, rfl, hvalues, hpos, fun h => hnot h.2⟩⟩

theorem deposit_spec (L : bb.bank.Lawful balanceOf) (transferID : Bytes) (a : Account)
    (credits : List BlindedCredit) (b : B) :
    let r := a.deposit bb transferID credits b
    let accepted := bb.accepted transferID a.token credits b
    let balance := int64 (balanceOf b a.token + BlindBank.totalAmount accepted)
    balanceOf r.2.2 = Function.update (balanceOf b) a.token balance ∧
      ((∃ e, r.1 = some e) ∧ r.2.1 = a ∧ (credits = [] ∨ accepted ≠ credits) ∨
        r.1 = none ∧ r.2.1 = { a with balance } ∧ credits ≠ [] ∧ accepted = credits) := by
  intro r accepted balance
  have hr : r = a.deposit bb transferID credits b := rfl
  rw [deposit, BlindBank.deposit] at hr
  by_cases hnil : credits.length = 0
  · have hcredits := List.length_eq_zero_iff.1 hnil
    rw [if_pos hnil] at hr
    rw [hr]
    refine ⟨?_, .inl ⟨⟨_, rfl⟩, rfl, .inl hcredits⟩⟩
    have hbalance : balance = int64 (balanceOf b a.token + 0) := by
      simp [balance, accepted, hcredits, BlindBank.accepted, BlindBank.totalAmount]
    rw [hbalance]
    exact (BlindBank.update_int64_balanceOf L a.token).symm
  · rw [if_neg hnil] at hr
    obtain ⟨hafter, hcases⟩ := BlindBank.depositLoop_spec L transferID a.token 0 credits b
    cases hloop : bb.depositLoop transferID a.token 0 credits b with
    | mk res b₁ =>
      rw [hloop] at hr hafter hcases
      obtain ⟨⟨e, he⟩, hne⟩ | ⟨hok, hall⟩ := hcases
      · simp only at he
        subst he
        rw [hr]
        exact ⟨hafter, .inl ⟨⟨_, rfl⟩, rfl, .inr hne⟩⟩
      · have hcons : credits ≠ [] := fun h => hnil (by rw [h]; rfl)
        simp only [if_neg hcons] at hok
        subst hok
        rw [hr]
        exact ⟨hafter, .inr ⟨rfl, rfl, hcons, hall⟩⟩

end Account

/-! ## Calls of the owner -/

/-- The in-memory bank at the time 0, with every signature accepted and balances rounded to 4. -/
def exampleBank : BlindBank (Bank InMem.NonceLocker) where
  payee := ⟨.accepting⟩
  bank := InMem.bank ⟨.accepting⟩ (InMem.nonceLocker 0 (.ok (Vector.replicate 8 1)))
    (fun _ => .ok (.ofNat 4)) ⟨.ok ([], []), .ok ⟨0, List.replicate 16 9, false⟩⟩

theorem exampleBank_lawful : exampleBank.bank.Lawful InMem.balanceOf := by
  simp only [exampleBank]
  exact InMem.lawful ..

namespace Owned

variable {bb : BlindBank B} {balanceOf : B → Bytes → Int} {s : Owned B}

/-- A call sets the balance at the bank to some `n`. The account has it if the call succeeds. If it
fails, the account is as it was, and the balance at the bank has changed exactly if the call was
interrupted. -/
theorem exec_spec (L : bb.bank.Lawful balanceOf) (s : Owned B) (call : AccountCall) :
    ∃ n, balanceOf (s.next bb call).bank = Function.update (balanceOf s.bank) s.account.token n ∧
      ((s.exec bb call).1 = false ∧ (s.next bb call).account = { s.account with balance := n } ∧
          ¬ s.Interrupted bb call ∨
        (s.exec bb call).1 = true ∧ (s.next bb call).account = s.account ∧
          (n = balanceOf s.bank s.account.token ↔ ¬ s.Interrupted bb call)) := by
  have hrange := L.int64_balanceOf s.bank s.account.token
  cases call with
  | deposit transferID credits =>
    obtain ⟨hafter, hcases⟩ := Account.deposit_spec L transferID s.account credits s.bank
    refine ⟨_, hafter, ?_⟩
    simp only [next, exec, Interrupted, BlindBank.Rejects]
    obtain ⟨⟨e, he⟩, haccount, hfew⟩ | ⟨hok, haccount, -, hall⟩ := hcases
    · refine .inr ⟨by rw [he]; rfl, haccount, ?_⟩
      rw [int64_add_eq_self_iff hrange]
      obtain rfl | hne := hfew
      · exact iff_of_true (by simp [BlindBank.accepted, BlindBank.totalAmount, int64])
          fun h => h.1 rfl
      · rw [not_and_not_right]
        exact (imp_iff_right hne).symm
    · exact .inl ⟨by rw [hok]; rfl, haccount, fun h => h.1 hall⟩
  | withdraw transferID env w =>
    by_cases hw : w = fullWithdrawal
    · subst hw
      simp only [next, exec, Interrupted, if_pos]
      obtain ⟨e, he, haccount, hafter, hnot⟩ | ⟨hpos, hafter, hcases⟩ :=
        Account.withdraw_full_spec L transferID s.account env s.bank
      · refine ⟨_, ?_, .inr ⟨by rw [he], haccount, iff_of_true rfl hnot⟩⟩
        rw [hafter, Function.update_eq_self]
      · refine ⟨0, hafter, ?_⟩
        obtain ⟨e, he, haccount, htorn⟩ | ⟨credit, hok, haccount, hnot⟩ := hcases
        · exact .inr ⟨by rw [he], haccount, iff_of_false hpos.ne (not_not_intro htorn)⟩
        · exact .inl ⟨by rw [hok], haccount, hnot⟩
    · simp only [next, exec, Interrupted, if_neg hw]
      obtain ⟨e, he, haccount, hafter, hnot⟩ | ⟨hafter, hcases⟩ :=
        Account.withdraw_batch_spec L transferID s.account env hw s.bank
      · refine ⟨_, ?_, .inr ⟨by rw [he], haccount, iff_of_true rfl fun h => hnot ⟨h.1, h.2.1⟩⟩⟩
        rw [hafter, Function.update_eq_self]
      · refine ⟨_, hafter, ?_⟩
        obtain ⟨e, he, haccount, htorn⟩ | ⟨credits, hok, haccount, -, -, hnot⟩ := hcases
        · refine .inr ⟨by rw [he], haccount, ?_⟩
          rw [Int.sub_eq_add_neg, int64_add_eq_self_iff hrange, int64_neg_eq_zero_iff, ← and_assoc,
            not_and_not_right]
          exact (imp_iff_right htorn).symm
        · exact .inl ⟨by rw [hok], haccount, fun h => hnot ⟨h.1, h.2.1⟩⟩

theorem faithful_iff (L : bb.bank.Lawful balanceOf) (hs : s.Mirrors balanceOf)
    (call : AccountCall) : s.Faithful bb balanceOf call ↔ ¬ s.Interrupted bb call := by
  obtain ⟨n, hbank, ⟨hok, haccount, hnot⟩ | ⟨hfail, haccount, hiff⟩⟩ := exec_spec L s call
  · refine iff_of_true ⟨?_, fun h => ?_⟩ hnot
    · rw [Mirrors, haccount, hbank, Function.update_self]
    · rw [hok] at h
      cases h
  · rw [Faithful, Mirrors, haccount, hbank, Function.update_self, hs, ← hiff, hfail]
    constructor
    · intro h
      exact h.1.symm
    · intro h
      exact ⟨h.symm, fun _ => h⟩

theorem account_mirrors_iff (bb : BlindBank B) (balanceOf : B → Bytes → Int)
    (L : bb.bank.Lawful balanceOf) (s : Owned B) (hs : s.Mirrors balanceOf)
    (calls : List AccountCall) :
    Trace.Along (next bb) (Faithful bb balanceOf) s calls ↔
      Trace.Along (next bb) (fun s call => ¬ s.Interrupted bb call) s calls :=
  Trace.along_congr (P := Mirrors balanceOf) (fun _ call hm => faithful_iff L hm call)
    (fun _ _ _ h => h.1) hs

/-- The bank accepts the first of two equal credits and rejects the second one: the deposit fails,
the bank has 5 units and the account none. -/
theorem deposit_rejected_midway :
    let credit : BlindedCredit := ⟨⟨false, 5, by decide⟩, ⟨0, List.replicate 16 7, false⟩, []⟩
    let s : Owned (Bank InMem.NonceLocker) := ⟨emptyBankAccount [1], ⟨.new, .new⟩⟩
    let call := AccountCall.deposit [] [credit, credit]
    exampleBank.bank.Lawful InMem.balanceOf ∧ s.Mirrors InMem.balanceOf ∧
      (s.exec exampleBank call).1 = true ∧
      InMem.balanceOf (s.next exampleBank call).bank [1] = 5 ∧
      (s.next exampleBank call).account.balance = 0 := by
  intro credit s call
  exact ⟨exampleBank_lawful, by decide, by decide, by decide, by decide⟩

/-- Deposit 5 units, take 2 of them as a batch and the rest with a full withdrawal. -/
theorem account_mirrors_iff_emptied :
    let credit : BlindedCredit := ⟨⟨false, 5, by decide⟩, ⟨0, List.replicate 16 7, false⟩, []⟩
    let s : Owned (Bank InMem.NonceLocker) := ⟨emptyBankAccount [1], ⟨.new, .new⟩⟩
    let env : WithdrawEnv := ⟨fun _ => ⟨.ok ([], []), .ok ⟨0, List.replicate 16 8, false⟩⟩, none⟩
    let calls : List AccountCall :=
      [.deposit [] [credit], .withdraw [] env { credits := 1, amount := ⟨false, 2, by decide⟩ },
        .withdraw [] env fullWithdrawal]
    exampleBank.bank.Lawful InMem.balanceOf ∧ s.Mirrors InMem.balanceOf ∧
      Trace.Along (next exampleBank) (Faithful exampleBank InMem.balanceOf) s calls ∧
      Trace.Along (next exampleBank) (fun s call => ¬ s.Interrupted exampleBank call) s calls := by
  intro credit s env calls
  have hmirrors : s.Mirrors InMem.balanceOf := by decide
  have hall : Trace.Along (next exampleBank) (Faithful exampleBank InMem.balanceOf) s calls := by
    decide
  exact ⟨exampleBank_lawful, hmirrors, hall,
    (account_mirrors_iff exampleBank InMem.balanceOf exampleBank_lawful s hmirrors calls).1 hall⟩

end Owned

end Wallet
