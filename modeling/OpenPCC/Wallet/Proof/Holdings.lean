import Mathlib.Tactic.LinearCombination
import Mathlib.Tactic.Ring
import OpenPCC.Lib.Bag
import OpenPCC.Wallet.Holdings
import OpenPCC.Wallet.Proof.Account

/-!
# The wallet status is a balance sheet

Sums of `int64` values are compared in `Word`. `Sheet` has what the status reports; `Holdings.sheet`
computes it from the accounts and stacks, `WalletStats.sheet` from the counters. Each end of a
transfer changes one entry of the first by the amount of the credits (`accountWithdraw_spec` and the
lemmas after it), a full withdrawal by that amount less the rounding gain. A step changes the second
in the same way, and so the two agree in every run.
-/

namespace Wallet

open Go Anonpay

variable {B : Type}

/-! ## Counters -/

theorem cast_sumAmounts (credits : List BlindedCredit) :
    (sumAmounts (credits.map (·.value)) : Word) = BlindBank.totalAmount credits := by
  have hfold (sum : Int) :
      (((credits.map (·.value)).foldl
        (fun sum (amount : Value) => int64 (sum + amount.amountOrZero)) sum : Int) : Word) =
        sum + BlindBank.totalAmount credits := by
    induction credits generalizing sum with
    | nil => simp [BlindBank.totalAmount]
    | cons c credits ih =>
      rw [List.map_cons, List.foldl_cons, ih]
      simp only [cast_int64, BlindBank.totalAmount, List.map_cons, List.sum_cons, Int.cast_add]
      ring
  simpa [sumAmounts] using hfold 0

/-- What the status reports. -/
@[ext]
structure Sheet where
  accounts : Word
  batches : Word
  batchCredits : Word
  spend : Word

/-- The amount that a counter adds to where the transfers go. -/
def TransferCounter.produced (tc : TransferCounter) : Word := tc.c.amount

/-- The amount that a counter takes from where the transfers come from. -/
def TransferCounter.consumed (tc : TransferCounter) : Word := tc.c.amount - tc.c.roundingGain

def TransferCounter.credits (tc : TransferCounter) : Word := tc.c.credits

section

variable (tc : TransferCounter) (gain : Int) (credits : List BlindedCredit)

theorem TransferCounter.produced_count :
    (tc.count gain (credits.map (·.value))).produced =
      tc.produced + BlindBank.totalAmount credits := by
  simp [TransferCounter.produced, TransferCounter.count, cast_sumAmounts]

theorem TransferCounter.consumed_count :
    (tc.count gain (credits.map (·.value))).consumed =
      tc.consumed + (BlindBank.totalAmount credits - gain) := by
  simp only [TransferCounter.consumed, TransferCounter.count, cast_int64, Int.cast_add,
    cast_sumAmounts]
  ring

theorem TransferCounter.credits_count :
    (tc.count gain (credits.map (·.value))).credits = tc.credits + credits.length := by
  simp [TransferCounter.credits, TransferCounter.count]

end

def WalletStats.sheet (st : WalletStats) : Sheet where
  accounts := st.provideAccount.sourceTransfers.produced + st.consolidate.fromBankBatches.produced +
    st.consolidate.fromAccounts.produced + st.consolidate.fromPaymentResults.produced -
    st.prefetchWithdraw.splitAccounts.consumed - st.consolidate.fromAccounts.consumed -
    st.returnToSource.fromAccounts.consumed
  batches := st.prefetchWithdraw.splitAccounts.produced -
    st.prefetchWithdraw.paymentRequests.consumed - st.returnToSource.fromBankBatches.consumed -
    st.consolidate.fromBankBatches.consumed
  batchCredits := st.prefetchWithdraw.splitAccounts.credits -
    st.prefetchWithdraw.paymentRequests.credits - st.returnToSource.fromBankBatches.credits -
    st.consolidate.fromBankBatches.credits
  spend := st.prefetchWithdraw.paymentRequests.produced - st.paymentResults.consumed

/-! ## The ends of a transfer -/

theorem totalAmount_of_forall {credits : List BlindedCredit} {n : Int}
    (h : ∀ c ∈ credits, c.value.amountOrZero = n) :
    BlindBank.totalAmount credits = credits.length * n := by
  have hmap : credits.map (·.value.amountOrZero) = List.replicate credits.length n := by
    rw [List.eq_replicate_iff]
    simpa using h
  rw [BlindBank.totalAmount, hmap, List.sum_replicate, nsmul_eq_mul]

theorem totalAmount_append (credits credits' : List BlindedCredit) :
    BlindBank.totalAmount (credits ++ credits') =
      BlindBank.totalAmount credits + BlindBank.totalAmount credits' := by
  simp [BlindBank.totalAmount]

theorem totalAmount_of_values {credits : List BlindedCredit} {n : Nat} {amount : Value}
    (h : credits.map (·.value) = List.replicate n amount) :
    BlindBank.totalAmount credits = n * amount.amountOrZero := by
  obtain ⟨hlen, hall⟩ := List.eq_replicate_iff.1 h
  rw [List.length_map] at hlen
  rw [← hlen]
  refine totalAmount_of_forall fun c hc => ?_
  rw [hall c.value (List.mem_map_of_mem hc)]

section

variable {bb : BlindBank B} {balanceOf : B → Bytes → Int} {a a' : Account} {b b' : B}
  {id : Bytes} {env : WithdrawEnv} {w : Withdrawal} {credits : List BlindedCredit} {gain : Int}

theorem Account.withdraw_ok (L : bb.bank.Lawful balanceOf)
    (hmirrors : a.balance = balanceOf b a.token)
    (h : a.withdraw bb id env w b = (.ok (credits, gain), a', b')) :
    a'.token = a.token ∧ balanceOf b' = Function.update (balanceOf b) a.token a'.balance ∧
      (a'.balance : Word) = a.balance + (gain - BlindBank.totalAmount credits) := by
  by_cases hw : w = fullWithdrawal
  · subst hw
    obtain ⟨e, he, -⟩ | ⟨-, hafter, ⟨e, he, -⟩ | ⟨credit, hok, haccount, -⟩⟩ :=
      Account.withdraw_full_spec L id a env b
    · rw [h] at he
      cases he
    · rw [h] at he
      cases he
    · rw [h] at hafter hok haccount
      cases hok
      simp only at haccount
      subst haccount
      refine ⟨rfl, hafter, ?_⟩
      simp [BlindBank.totalAmount]
  · obtain ⟨e, he, -⟩ | ⟨hafter, ⟨e, he, -⟩ | ⟨credits', hok, haccount, hvalues, hpos, -⟩⟩ :=
      Account.withdraw_batch_spec L id a env hw b
    · rw [h] at he
      cases he
    · rw [h] at he
      cases he
    · rw [h] at hafter hok haccount
      cases hok
      simp only at haccount
      subst haccount
      refine ⟨rfl, hafter, ?_⟩
      rw [totalAmount_of_values hvalues, Int.toNat_of_nonneg hpos.le, hmirrors, cast_int64]
      push_cast
      ring

theorem Account.deposit_ok (L : bb.bank.Lawful balanceOf)
    (hmirrors : a.balance = balanceOf b a.token)
    (h : a.deposit bb id credits b = (none, a', b')) :
    a'.token = a.token ∧ balanceOf b' = Function.update (balanceOf b) a.token a'.balance ∧
      (a'.balance : Word) = a.balance + BlindBank.totalAmount credits := by
  obtain ⟨hafter, ⟨⟨e, he⟩, -⟩ | ⟨-, haccount, -, hall⟩⟩ := Account.deposit_spec L id a credits b
  · rw [h] at he
    cases he
  · rw [h, hall] at haccount
    rw [h, hall] at hafter
    simp only at haccount
    subst haccount
    refine ⟨rfl, hafter, ?_⟩
    rw [hmirrors]
    simp

end

theorem PaymentResult.withdraw_spec {bb : BlindBank B} {balanceOf : B → Bytes → Int}
    (L : bb.bank.Lawful balanceOf) (d : PaymentResult) (draw : Draw) (id : Bytes) (w : Withdrawal)
    (b : B) :
    let r := d.withdraw bb draw id w b
    r.2.1.unspend = d.unspend ∧ balanceOf r.2.2 = balanceOf b := by
  intro r
  have hr : r = d.withdraw bb draw id w b := rfl
  rw [PaymentResult.withdraw] at hr
  split_ifs at hr
  · rw [hr]
    exact ⟨rfl, rfl⟩
  · rw [hr]
    exact ⟨rfl, rfl⟩
  · have hexchange := (BlindBank.exchange_spec L id draw d.unspend b).1
    cases hx : bb.exchange id draw d.unspend b with
    | mk res b' =>
      rw [hx] at hr hexchange
      cases res with
      | error e =>
        rw [hr]
        exact ⟨rfl, hexchange⟩
      | ok exchanged =>
        rw [hr]
        exact ⟨rfl, hexchange⟩

namespace CreditStack

variable {st st' : CreditStack} {w : Withdrawal} {credits : List BlindedCredit} {gain : Int}

/-- All credits have the amount of the stack. -/
def Uniform (st : CreditStack) : Prop :=
  ∀ c ∈ st.credits, c.value.amountOrZero = st.creditAmount.amountOrZero

theorem Uniform.cast_balance (h : st.Uniform) :
    (st.balance : Word) = BlindBank.totalAmount st.credits := by
  rw [balance, cast_int64, totalAmount_of_forall h]

theorem withdraw_ok (h : st.withdraw w = some (.ok (credits, gain, st'))) :
    gain = 0 ∧ st.credits = credits ++ st'.credits ∧ st'.creditAmount = st.creditAmount := by
  rw [withdraw] at h
  split at h
  · simp only at h
    generalize (if w = fullWithdrawal then (st.credits.length : Int) else w.credits) = i at h
    split at h
    · cases h
    · simp only [Option.some.injEq, Except.ok.injEq, Prod.mk.injEq] at h
      obtain ⟨rfl, rfl, rfl⟩ := h
      exact ⟨rfl, (List.take_append_drop _ _).symm, rfl⟩
  · cases h

/-- The check of `process` makes the amounts of the credits equal. -/
theorem eq_head_of_unequalAmounts {first : BlindedCredit} {rest : List BlindedCredit}
    (h : unequalAmounts (first :: rest) = none) :
    ∀ c ∈ first :: rest, c.value.amountOrZero = first.value.amountOrZero := by
  induction rest generalizing first with
  | nil => simp
  | cons second rest ih =>
    rw [unequalAmounts] at h
    split at h
    · cases h
    · next heq =>
      rw [not_not] at heq
      intro c hc
      rcases List.mem_cons.1 hc with rfl | hc
      · rfl
      · rw [ih h c hc, heq]

theorem uniform_deposit {id : Bytes} (h : st.deposit id credits = .ok st')
    (heq : unequalAmounts credits = none) : st'.Uniform := by
  unfold deposit at h
  split at h
  · cases h
  · split at h
    · cases h
    · split at h
      · cases h
      · cases h
        exact eq_head_of_unequalAmounts heq

end CreditStack

theorem process_eq_ok {S : Type} {env : ProcessEnv} {intent : Intent S} {s s' : S} {t : Transfer}
    (h : process env intent s = some (.ok t, s')) :
    ∃ id credits gain s₁,
      intent.src.withdraw id intent.withdrawal s = some (.ok (credits, gain), s₁) ∧
      unequalAmounts credits = none ∧ intent.dst.deposit id credits s₁ = (none, s') ∧
      t = ⟨id, gain, credits.map (·.value)⟩ := by
  rw [process] at h
  split at h
  · cases h
  split at h
  · cases h
  · next id hid =>
    split at h
    · cases h
    · split at h
      · cases h
      · split at h
        · cases h
        · cases h
      · next credits gain s₁ hwithdraw =>
        refine ⟨id, credits, gain, s₁, hwithdraw, ?_⟩
        rw [depositWithdrawn, Option.some.injEq] at h
        split at h
        · cases h
        · next heq =>
          split at h
          · cases h
          · split at h
            · cases h
            · next s₂ hdeposit =>
              cases h
              exact ⟨heq, hdeposit, rfl⟩

namespace Holdings

variable {bb : BlindBank B} {balanceOf : B → Bytes → Int} {s s' : Holdings B}

def sheet (s : Holdings B) : Sheet where
  accounts := ((s.accounts.map (·.balance)).sum : Int)
  batches := ((s.batches.map (·.balance)).sum : Int)
  batchCredits := s.batchCredits
  spend := s.paid - s.returned

theorem balanceSheet_iff : s.BalanceSheet ↔ s.stats.sheet = s.sheet := by
  simp only [BalanceSheet, WalletStats.calcWalletStatus, creditCountBetween, sumTransferCounts,
    List.foldl_cons, List.foldl_nil, CreditCount.mk.injEq, int64_eq_int64_iff, Sheet.ext_iff,
    WalletStats.sheet, sheet, TransferCounter.produced, TransferCounter.consumed,
    TransferCounter.credits, TransferCount.amountNoRounding, TransferCounter.read, cast_int64,
    Int.cast_add, Int.cast_sub, and_assoc]
  refine and_congr (Eq.congr_left ?_) Iff.rfl
  ring

/-! ### What the wallet holds -/

/-- The accounts mirror the bank under tokens of their own, and the batches are uniform. -/
structure Wf (balanceOf : B → Bytes → Int) (s : Holdings B) : Prop where
  tokens : (s.accounts.map (·.token)).Nodup
  mirrors : ∀ acc ∈ s.accounts, acc.balance = balanceOf s.bank acc.token
  uniform : ∀ batch ∈ s.batches, batch.Uniform

/-- An end of a transfer takes `s` to `s'`, which has the amounts `sheet`. -/
structure Moved (balanceOf : B → Bytes → Int) (s s' : Holdings B) (sheet : Sheet) : Prop where
  wf : s'.Wf balanceOf
  stats : s'.stats = s.stats
  sheet : s'.sheet = sheet

theorem Wf.setAccount (hs : s.Wf balanceOf) {i : Nat} {acc acc' : Account} {bank : B} {x : Word}
    (hi : s.accounts[i]? = some acc) (htoken : acc'.token = acc.token)
    (hbank : balanceOf bank = Function.update (balanceOf s.bank) acc.token acc'.balance)
    (hbalance : (acc'.balance : Word) = acc.balance + x) :
    Moved balanceOf s { s with accounts := s.accounts.set i acc', bank }
      { s.sheet with accounts := s.sheet.accounts + x } := by
  have hlt := (List.getElem?_eq_some_iff.1 hi).1
  have htokens : (s.accounts.set i acc').map (·.token) = s.accounts.map (·.token) := by
    refine List.ext_getElem? fun j => ?_
    by_cases hij : i = j
    · subst hij
      rw [List.getElem?_map, List.getElem?_map, List.getElem?_set_self hlt, hi, Option.map_some,
        Option.map_some, htoken]
    · simp [List.getElem?_set_ne hij]
  refine ⟨⟨htokens ▸ hs.tokens, ?_, hs.uniform⟩, rfl, ?_⟩
  · intro x hx
    obtain ⟨j, hj⟩ := List.mem_iff_getElem?.1 hx
    by_cases hij : i = j
    · subst hij
      rw [List.getElem?_set_self hlt, Option.some.injEq] at hj
      rw [← hj, hbank, htoken, Function.update_self]
    · -- the other accounts have other tokens
      rw [List.getElem?_set_ne hij] at hj
      have hne : x.token ≠ acc.token := by
        intro heq
        refine hij ((List.getElem?_inj (by simpa using hlt) hs.tokens).1 ?_)
        rw [List.getElem?_map, List.getElem?_map, hi, hj, Option.map_some, Option.map_some, heq]
      rw [hbank, Function.update_of_ne hne]
      exact hs.mirrors x (List.mem_of_getElem? hj)
  · ext
    · simp only [sheet, Bag.sum_map_set_eq hi acc', Int.cast_add, Int.cast_sub, hbalance]
      ring
    all_goals rfl

theorem accountWithdraw_spec (L : bb.bank.Lawful balanceOf) (hs : s.Wf balanceOf)
    {env : WithdrawEnv} {i : Nat} {id : Bytes} {w : Withdrawal} {credits : List BlindedCredit}
    {gain : Int}
    (h : (accountWithdrawable bb env i).withdraw id w s = some (.ok (credits, gain), s')) :
    Moved balanceOf s s' { s.sheet with
      accounts := s.sheet.accounts + (gain - BlindBank.totalAmount credits) } := by
  simp only [accountWithdrawable, Option.bind_eq_bind, Option.bind_eq_some_iff, Option.pure_def,
    Option.some.injEq, Prod.mk.injEq] at h
  obtain ⟨acc, hi, hr, rfl⟩ := h
  obtain ⟨htoken, hbank, hbalance⟩ :=
    Account.withdraw_ok L (hs.mirrors acc (List.mem_of_getElem? hi)) (Prod.ext hr rfl)
  exact hs.setAccount hi htoken hbank hbalance

theorem accountDeposit_spec (L : bb.bank.Lawful balanceOf) (hs : s.Wf balanceOf) {i : Nat}
    {id : Bytes} {credits : List BlindedCredit}
    (h : (accountDepositable bb i).deposit id credits s = (none, s')) :
    Moved balanceOf s s' { s.sheet with
      accounts := s.sheet.accounts + BlindBank.totalAmount credits } := by
  simp only [accountDepositable] at h
  split at h
  · cases h
  · next acc hi =>
    simp only [Prod.mk.injEq] at h
    obtain ⟨hr, rfl⟩ := h
    obtain ⟨htoken, hbank, hbalance⟩ :=
      Account.deposit_ok L (hs.mirrors acc (List.mem_of_getElem? hi)) (Prod.ext hr rfl)
    exact hs.setAccount hi htoken hbank hbalance

theorem bankBatchWithdraw_spec (hs : s.Wf balanceOf) {i : Nat} {id : Bytes} {w : Withdrawal}
    {credits : List BlindedCredit} {gain : Int}
    (h : (bankBatchWithdrawable i).withdraw id w s = some (.ok (credits, gain), s')) :
    gain = 0 ∧ Moved balanceOf s s' { s.sheet with
      batches := s.sheet.batches - BlindBank.totalAmount credits
      batchCredits := s.sheet.batchCredits - credits.length } := by
  simp only [bankBatchWithdrawable, Option.bind_eq_bind, Option.bind_eq_some_iff,
    Option.pure_def] at h
  obtain ⟨batch, hi, r, hr, h⟩ := h
  have hbatch := hs.uniform batch (List.mem_of_getElem? hi)
  cases r with
  | error e => cases h
  | ok r =>
    obtain ⟨credits', gain', batch'⟩ := r
    simp only [Option.some.injEq, Prod.mk.injEq, Except.ok.injEq] at h
    obtain ⟨⟨rfl, rfl⟩, rfl⟩ := h
    obtain ⟨hgain, hcredits, hamount⟩ := CreditStack.withdraw_ok hr
    have hbatch' : batch'.Uniform := by
      intro c hc
      rw [hamount]
      exact hbatch c (by rw [hcredits]; exact List.mem_append_right _ hc)
    refine ⟨hgain, ⟨hs.tokens, hs.mirrors, ?_⟩, rfl, ?_⟩
    · intro x hx
      rcases List.mem_or_eq_of_mem_set hx with hx | rfl
      · exact hs.uniform x hx
      · exact hbatch'
    · ext
      · rfl
      · simp only [sheet, Bag.sum_map_set_eq hi batch', Int.cast_add, Int.cast_sub,
          hbatch.cast_balance, hbatch'.cast_balance, hcredits, totalAmount_append]
        ring
      · simp only [sheet, batchCredits, Bag.sum_map_set_eq hi batch', CreditStack.numCredits,
          hcredits, List.length_append]
        push_cast
        ring
      · rfl

theorem bankBatchDeposit_spec (hs : s.Wf balanceOf) {id : Bytes} {credits : List BlindedCredit}
    (heq : unequalAmounts credits = none)
    (h : bankBatchDepositable.deposit id credits s = (none, s')) :
    Moved balanceOf s s' { s.sheet with
      batches := s.sheet.batches + BlindBank.totalAmount credits
      batchCredits := s.sheet.batchCredits + credits.length } := by
  simp only [bankBatchDepositable] at h
  split at h
  · cases h
  · next batch hbatch =>
    cases h
    have huniform := CreditStack.uniform_deposit hbatch heq
    have hcredits := CreditStack.deposit_eq_ok hbatch
    refine ⟨⟨hs.tokens, hs.mirrors, ?_⟩, rfl, ?_⟩
    · intro x hx
      rcases List.mem_append.1 hx with hx | hx
      · exact hs.uniform x hx
      · rw [List.mem_singleton.1 hx]
        exact huniform
    · ext
      · rfl
      · simp [sheet, huniform.cast_balance, hcredits]
      · simp [sheet, batchCredits, CreditStack.numCredits, hcredits]
      · rfl

theorem paymentRequestDeposit_spec (hs : s.Wf balanceOf) {desiredAmount : Value} {id : Bytes}
    {credits : List BlindedCredit}
    (h : (paymentRequestDepositable desiredAmount).deposit id credits s = (none, s')) :
    Moved balanceOf s s' { s.sheet with
      spend := s.sheet.spend + BlindBank.totalAmount credits } := by
  simp only [paymentRequestDepositable, PaymentRequest.deposit] at h
  cases hstack : (newPaymentRequest desiredAmount).stack.deposit id credits with
  | error e =>
    rw [hstack] at h
    cases h
  | ok stack =>
    rw [hstack] at h
    cases h
    refine ⟨⟨hs.tokens, hs.mirrors, hs.uniform⟩, rfl, ?_⟩
    ext
    · rfl
    · rfl
    · rfl
    · simp only [sheet, paid, returned, List.map_append, List.sum_append, List.map_cons,
        List.map_nil, List.sum_cons, List.sum_nil, CreditStack.deposit_eq_ok hstack]
      push_cast
      ring

theorem paymentResultWithdraw_spec (L : bb.bank.Lawful balanceOf) (hs : s.Wf balanceOf)
    {draw : Draw} {i : Nat} {id : Bytes} {w : Withdrawal} {credits : List BlindedCredit}
    {gain : Int}
    (h : (paymentResultWithdrawable bb draw i).withdraw id w s = some (.ok (credits, gain), s')) :
    Moved balanceOf s s' s.sheet := by
  simp only [paymentResultWithdrawable, Option.bind_eq_bind, Option.bind_eq_some_iff,
    Option.pure_def, Option.some.injEq, Prod.mk.injEq] at h
  obtain ⟨result, hi, -, rfl⟩ := h
  obtain ⟨hunspend, hbank⟩ := PaymentResult.withdraw_spec L result draw id w s.bank
  refine ⟨⟨hs.tokens, ?_, hs.uniform⟩, rfl, ?_⟩
  · intro acc hacc
    rw [hbank]
    exact hs.mirrors acc hacc
  · ext
    · rfl
    · rfl
    · rfl
    · simp only [sheet, paid, returned, Bag.sum_map_set_eq hi, hunspend, Int.sub_add_cancel]

/-! ### Transfers -/

theorem transfer_eq_some {env : ProcessEnv} {intent : Intent (Holdings B)}
    {count : Transfer → WalletStats → WalletStats} (h : s.transfer env intent count = some s') :
    ∃ id credits gain s₁ s₂,
      intent.src.withdraw id intent.withdrawal s = some (.ok (credits, gain), s₁) ∧
      unequalAmounts credits = none ∧ intent.dst.deposit id credits s₁ = (none, s₂) ∧
      s' = { s₂ with stats := count ⟨id, gain, credits.map (·.value)⟩ s₂.stats } := by
  rw [transfer] at h
  split at h
  · next tsfr s₂ hprocess =>
    obtain ⟨id, credits, gain, s₁, hwithdraw, heq, hdeposit, rfl⟩ := process_eq_ok hprocess
    exact ⟨id, credits, gain, s₁, s₂, hwithdraw, heq, hdeposit, (Option.some.inj h).symm⟩
  · cases h

/-- The counters agree with what the wallet holds. -/
structure Inv (balanceOf : B → Bytes → Int) (s : Holdings B) : Prop where
  wf : s.Wf balanceOf
  sheet : s.stats.sheet = s.sheet

theorem Moved.trans {s₁ s₂ : Holdings B} {sheet₁ sheet₂ : Sheet} (h₁ : Moved balanceOf s s₁ sheet₁)
    (h₂ : Moved balanceOf s₁ s₂ sheet₂) : Moved balanceOf s s₂ sheet₂ :=
  ⟨h₂.wf, h₂.stats.trans h₁.stats, h₂.sheet⟩

/-- A transfer keeps the invariant if its counter changes the sheet as its ends do. -/
theorem Inv.of_transfer {env : ProcessEnv} {intent : Intent (Holdings B)}
    {count : Transfer → WalletStats → WalletStats} (h : s.transfer env intent count = some s')
    (hends : ∀ id credits gain s₁ s₂,
      intent.src.withdraw id intent.withdrawal s = some (.ok (credits, gain), s₁) →
      unequalAmounts credits = none → intent.dst.deposit id credits s₁ = (none, s₂) →
      ∃ sheet, Moved balanceOf s s₂ sheet ∧
        (count ⟨id, gain, credits.map (·.value)⟩ s.stats).sheet = sheet) :
    s'.Inv balanceOf := by
  obtain ⟨id, credits, gain, s₁, s₂, hwithdraw, heq, hdeposit, rfl⟩ := transfer_eq_some h
  obtain ⟨sheet, ⟨hwf, hstats, hsheet⟩, hcount⟩ :=
    hends id credits gain s₁ s₂ hwithdraw heq hdeposit
  refine ⟨⟨hwf.tokens, hwf.mirrors, hwf.uniform⟩, ?_⟩
  rw [hstats]
  exact hcount.trans hsheet.symm

theorem sourceDeposit_spec (hs : s.Wf balanceOf) {svc : SourceService} {id : Bytes}
    {credits : List BlindedCredit} (h : (sourceDepositable svc).deposit id credits s = (none, s')) :
    Moved balanceOf s s' s.sheet := by
  simp only [sourceDepositable, Prod.mk.injEq] at h
  obtain ⟨-, rfl⟩ := h
  exact ⟨hs, rfl, rfl⟩

/-! ### Steps -/

theorem Inv.newAccount {cfg : Config} {token : Bytes} (hs : s.Inv balanceOf)
    (h : s.step bb balanceOf cfg (.newAccount token) = some s') : s'.Inv balanceOf := by
  rw [Holdings.step] at h
  split at h
  · next hfresh =>
    cases h
    refine ⟨⟨?_, ?_, hs.wf.uniform⟩, ?_⟩
    · rw [List.map_append, List.nodup_append]
      refine ⟨hs.wf.tokens, List.nodup_singleton _, fun t ht u hu => ?_⟩
      rw [List.mem_singleton.1 hu]
      exact ne_of_mem_of_not_mem ht hfresh.1
    · intro acc hacc
      rcases List.mem_append.1 hacc with hacc | hacc
      · exact hs.wf.mirrors acc hacc
      · rw [List.mem_singleton.1 hacc]
        exact hfresh.2.symm
    · refine hs.sheet.trans ?_
      ext
      · simp [Holdings.sheet, emptyBankAccount]
      all_goals rfl
  · cases h

theorem Inv.otherClients {cfg : Config} {bank : B} (hs : s.Inv balanceOf)
    (h : s.step bb balanceOf cfg (.otherClients bank) = some s') : s'.Inv balanceOf := by
  rw [Holdings.step] at h
  split at h
  · next hsame =>
    cases h
    refine ⟨⟨hs.wf.tokens, fun acc hacc => ?_, hs.wf.uniform⟩, hs.sheet⟩
    rw [hs.wf.mirrors acc hacc, hsame acc hacc]
  · cases h

theorem Inv.newPaymentResult {cfg : Config} {unspend : AnyCredit}
    (hs : s.Inv balanceOf) (h : s.step bb balanceOf cfg (.paymentResult unspend) = some s') :
    s'.Inv balanceOf := by
  rw [Holdings.step, Wallet.newPaymentResult] at h
  split at h
  · cases h
  · next result hresult =>
    split at hresult
    · cases hresult
    · cases hresult
      cases h
      refine ⟨⟨hs.wf.tokens, hs.wf.mirrors, hs.wf.uniform⟩, ?_⟩
      obtain ⟨haccounts, hbatches, hcredits, hspend⟩ := Sheet.ext_iff.1 hs.sheet
      refine Sheet.ext haccounts hbatches hcredits ?_
      simp only [WalletStats.sheet, Holdings.sheet, TransferCounter.consumed, paid,
        returned] at hspend
      simp only [WalletStats.sheet, Holdings.sheet, TransferCounter.consumed,
        TransferCounter.count, sumAmounts, List.foldl_cons, List.foldl_nil, paid, returned,
        List.map_append, List.sum_append, List.map_cons, List.map_nil, List.sum_cons,
        List.sum_nil]
      simp only [cast_int64, Int.cast_add, Int.cast_zero]
      linear_combination hspend

theorem Inv.step (L : bb.bank.Lawful balanceOf) {cfg : Config} {act : Act B}
    (hs : s.Inv balanceOf) (h : s.step bb balanceOf cfg act = some s') : s'.Inv balanceOf := by
  cases act with
  | newAccount token => exact hs.newAccount h
  | otherClients bank => exact hs.otherClients h
  | provideAccount env svc i =>
    rw [Holdings.step] at h
    refine .of_transfer h fun id credits gain s₁ s₂ hwithdraw _ hdeposit => ?_
    simp only [sourceWithdrawable, Option.some.injEq, Prod.mk.injEq] at hwithdraw
    obtain ⟨-, rfl⟩ := hwithdraw
    refine ⟨_, accountDeposit_spec L hs.wf hdeposit, ?_⟩
    rw [← hs.sheet]
    ext <;> simp only [WalletStats.sheet, TransferCounter.produced_count]
    ring
  | splitAccount env wenv i =>
    simp only [Holdings.step, Option.bind_eq_bind, Option.bind_eq_some_iff] at h
    obtain ⟨acc, -, h⟩ := h
    split at h
    · cases h
    refine .of_transfer h fun id credits gain s₁ s₂ hwithdraw heq hdeposit => ?_
    have hsrc := accountWithdraw_spec L hs.wf hwithdraw
    refine ⟨_, hsrc.trans (bankBatchDeposit_spec hsrc.wf heq hdeposit), ?_⟩
    rw [hsrc.sheet, ← hs.sheet]
    ext <;> simp only [WalletStats.sheet, TransferCounter.produced_count,
      TransferCounter.consumed_count, TransferCounter.credits_count] <;> ring
  | paymentRequest env i desiredAmount =>
    rw [Holdings.step] at h
    refine .of_transfer h fun id credits gain s₁ s₂ hwithdraw heq hdeposit => ?_
    obtain ⟨rfl, hsrc⟩ := bankBatchWithdraw_spec hs.wf hwithdraw
    refine ⟨_, hsrc.trans (paymentRequestDeposit_spec hsrc.wf hdeposit), ?_⟩
    rw [hsrc.sheet, ← hs.sheet]
    ext <;> simp only [WalletStats.sheet, TransferCounter.produced_count,
      TransferCounter.consumed_count, TransferCounter.credits_count] <;> ring
  | consolidate env wenv src i =>
    rw [Holdings.step] at h
    refine .of_transfer h fun id credits gain s₁ s₂ hwithdraw heq hdeposit => ?_
    cases src with
    | account j =>
      have hsrc := accountWithdraw_spec L hs.wf hwithdraw
      refine ⟨_, hsrc.trans (accountDeposit_spec L hsrc.wf hdeposit), ?_⟩
      rw [hsrc.sheet, ← hs.sheet]
      ext <;> simp only [WalletStats.sheet, Consolidatable.count, TransferCounter.produced_count,
        TransferCounter.consumed_count]
      ring
    | bankBatch j =>
      obtain ⟨rfl, hsrc⟩ := bankBatchWithdraw_spec hs.wf hwithdraw
      refine ⟨_, hsrc.trans (accountDeposit_spec L hsrc.wf hdeposit), ?_⟩
      rw [hsrc.sheet, ← hs.sheet]
      ext <;> simp only [WalletStats.sheet, Consolidatable.count, TransferCounter.produced_count,
        TransferCounter.consumed_count, TransferCounter.credits_count] <;> ring
    | paymentResult j =>
      have hsrc := paymentResultWithdraw_spec L hs.wf hwithdraw
      refine ⟨_, hsrc.trans (accountDeposit_spec L hsrc.wf hdeposit), ?_⟩
      rw [hsrc.sheet, ← hs.sheet]
      ext <;> simp only [WalletStats.sheet, Consolidatable.count, TransferCounter.produced_count]
      ring
  | accountToSource env wenv svc i =>
    rw [Holdings.step] at h
    refine .of_transfer h fun id credits gain s₁ s₂ hwithdraw _ hdeposit => ?_
    have hsrc := accountWithdraw_spec L hs.wf hwithdraw
    refine ⟨_, hsrc.trans (sourceDeposit_spec hsrc.wf hdeposit), ?_⟩
    rw [hsrc.sheet, ← hs.sheet]
    ext <;> simp only [WalletStats.sheet, TransferCounter.consumed_count]
    ring
  | bankBatchToSource env svc i =>
    rw [Holdings.step] at h
    refine .of_transfer h fun id credits gain s₁ s₂ hwithdraw _ hdeposit => ?_
    obtain ⟨rfl, hsrc⟩ := bankBatchWithdraw_spec hs.wf hwithdraw
    refine ⟨_, hsrc.trans (sourceDeposit_spec hsrc.wf hdeposit), ?_⟩
    rw [hsrc.sheet, ← hs.sheet]
    ext <;> simp only [WalletStats.sheet, TransferCounter.consumed_count,
      TransferCounter.credits_count] <;> ring
  | paymentResult unspend => exact hs.newPaymentResult h

/-- The status of a wallet is its balance sheet after every run, over any bank that honours its
contract. -/
theorem status_balanceSheet (bb : BlindBank B) (balanceOf : B → Bytes → Int)
    (L : bb.bank.Lawful balanceOf) (cfg : Config) (bank : B) (acts : List (Act B))
    (h : Trace.Along (next bb balanceOf cfg) (Enabled bb balanceOf cfg) { bank } acts) :
    Trace.Always (next bb balanceOf cfg) BalanceSheet { bank } acts := by
  have hnew : ({ bank } : Holdings B).Inv balanceOf :=
    ⟨⟨List.nodup_nil, by simp, by simp⟩, by
      simp [WalletStats.sheet, sheet, TransferCounter.produced, TransferCounter.consumed,
        TransferCounter.credits, batchCredits, paid, returned]⟩
  have hinv := Trace.always_of_step (P := Inv balanceOf) (E := Enabled bb balanceOf cfg)
    (fun s a hs ha => by
      obtain ⟨s', hs'⟩ := Option.isSome_iff_exists.1 ha
      rw [next, hs', Option.getD_some]
      exact hs.step L hs') hnew h
  exact hinv.mono fun s hs => balanceSheet_iff.2 hs.sheet

/-- An account of 5 units gives a batch of one credit of 4, which is paid, and the rest is rounded
up to 4 on its way to the source. Half of the payment comes back and is put into a new account. -/
theorem status_balanceSheet_rounded :
    let five : BlindedCredit := ⟨⟨false, 5, by decide⟩, ⟨0, List.replicate 16 7, false⟩, []⟩
    let two : UnblindedCredit := ⟨⟨false, 2, by decide⟩, ⟨0, List.replicate 16 5, false⟩, []⟩
    let env : ProcessEnv := { id := .ok [1] }
    let wenv : WithdrawEnv :=
      ⟨fun _ => ⟨.ok ([], []), .ok ⟨0, List.replicate 16 8, false⟩⟩, none⟩
    let svc : SourceService := ⟨fun _ _ => .ok five, fun _ _ => none⟩
    let cfg : Config := ⟨⟨false, 5, by decide⟩, ⟨false, 4, by decide⟩⟩
    let acts : List (Act (Bank InMem.NonceLocker)) :=
      [.newAccount [1], .provideAccount env svc 0, .splitAccount env wenv 0,
        .paymentRequest env 0 cfg.prefetchAmount, .accountToSource env wenv svc 0,
        .paymentResult (.unblinded two), .newAccount [2],
        .consolidate env wenv (.paymentResult 0) 1]
    let s : Holdings (Bank InMem.NonceLocker) := { bank := ⟨.new, .new⟩ }
    let step := next exampleBank InMem.balanceOf cfg
    exampleBank.bank.Lawful InMem.balanceOf ∧
      Trace.Along step (Enabled exampleBank InMem.balanceOf cfg) s acts ∧
      (acts.foldl step s).stats.calcWalletStatus = ⟨⟨0, 0⟩, ⟨2, 0⟩, 2⟩ ∧
      Trace.Always step BalanceSheet s acts := by
  intro five two env wenv svc cfg acts s step
  have henabled : Trace.Along step (Enabled exampleBank InMem.balanceOf cfg) s acts := by
    decide +kernel
  exact ⟨exampleBank_lawful, henabled, by decide +kernel,
    status_balanceSheet exampleBank InMem.balanceOf exampleBank_lawful cfg _ acts henabled⟩

end Holdings

end Wallet
