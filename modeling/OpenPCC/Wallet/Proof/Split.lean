import OpenPCC.Anonpay.Proof.Exact
import OpenPCC.Wallet.Proof.Holdings
import OpenPCC.Wallet.Split

/-!
# The size of a split

The balance of an account is the amount of the credits it received (`Filled.balance`), and the split
asks for one credit for each prefetch amount in it. Nothing bounds the balance: `New` accepts any
source amount, and what is consolidated into an account may exceed the source amount. A batch with
more credits than the limit is refused (`splitAccount_refused`).
-/

namespace Wallet

open Go Anonpay

variable {B : Type} {bb : BlindBank B} {balanceOf : B → Bytes → Int}

/-! ## Filled accounts -/

theorem Filled.mirrors (L : bb.bank.Lawful balanceOf) {credits : List BlindedCredit} {s : Owned B}
    (h : Filled bb balanceOf credits s) : s.Mirrors balanceOf := by
  induction h with
  | empty h => exact h.symm
  | otherClients _ hsame ih => exact ih.trans hsame.symm
  | deposit _ hdeposit ih =>
    obtain ⟨htoken, hbank, -⟩ := Account.deposit_ok L ih hdeposit
    rw [Owned.Mirrors, hbank, htoken, Function.update_self]

theorem Filled.balance (L : bb.bank.Lawful balanceOf) {credits : List BlindedCredit} {s : Owned B}
    (h : Filled bb balanceOf credits s) :
    s.account.balance = int64 (BlindBank.totalAmount credits) := by
  have hword : (s.account.balance : Word) = BlindBank.totalAmount credits := by
    induction h with
    | empty _ => simp [emptyBankAccount, BlindBank.totalAmount]
    | otherClients _ _ ih => exact ih
    | deposit hfilled hdeposit ih =>
      obtain ⟨-, -, hbalance⟩ := Account.deposit_ok L (hfilled.mirrors L) hdeposit
      rw [hbalance, ih, totalAmount_append, Int.cast_add]
  have hmirrors : s.account.balance = balanceOf s.bank s.account.token := h.mirrors L
  rw [← int64_eq_int64_iff, hmirrors, L.int64_balanceOf] at hword
  exact hmirrors.trans hword

/-! ## The withdrawal -/

/-- An account that is sent to the withdrawals is split within the limit if the credits it received
are worth less than one batch and another credit of the prefetch amount. -/
theorem splitsWithinLimit_iff (L : bb.bank.Lawful balanceOf) {config : Config}
    {cfg : Holdings.Config} (hnew : newWallet config = .ok cfg) {credits : List BlindedCredit}
    {s : Owned B} (hfilled : Filled bb balanceOf credits s) {closed : Bool}
    (hroute : routeAccount cfg closed s.account = .withdraw) :
    SplitsWithinLimit cfg s.account ↔
      int64 (BlindBank.totalAmount credits) < (maxBatchLen + 1) * config.prefetchAmount := by
  obtain ⟨hpos, hle, hsource, hprefetch⟩ := newWallet_eq_ok hnew
  have hsourceAmount := Value.amountOrZero_eq (exact_eq_ok_iff.1 hsource).2
  have hprefetchAmount := Value.amountOrZero_eq (exact_eq_ok_iff.1 hprefetch).2
  have hbalance : config.sourceAmount ≤ s.account.balance := by
    unfold routeAccount at hroute
    split at hroute
    · cases hroute
    · next hnot =>
      rw [not_or, not_lt, hsourceAmount] at hnot
      exact hnot.2
  have hdiv : s.account.balance.tdiv config.prefetchAmount =
      s.account.balance / config.prefetchAmount :=
    Int.tdiv_eq_ediv_of_nonneg (by omega)
  have hlower : 1 ≤ s.account.balance / config.prefetchAmount :=
    (Int.le_ediv_iff_mul_le hpos).2 (by omega)
  have hupper : s.account.balance / config.prefetchAmount ≤ maxBatchLen ↔
      s.account.balance < (maxBatchLen + 1) * config.prefetchAmount := by
    rw [← Int.lt_add_one_iff, Int.ediv_lt_iff_lt_mul hpos]
  have hnotLow : isLowAccount cfg s.account = false := by
    rw [isLowAccount, hprefetchAmount, decide_eq_false_iff_not]
    omega
  rw [← hfilled.balance L, ← hupper, ← hdiv, SplitsWithinLimit, splitWithdrawal, hprefetchAmount,
    if_neg (by omega)]
  constructor
  · rintro ⟨-, w, hw, -, hcredits⟩
    rw [← Option.some.inj hw] at hcredits
    exact hcredits
  · intro h
    exact ⟨hnotLow, _, rfl, hdiv ▸ hlower, h⟩

/-- A credit for the accounts below. -/
def sourceCredit (amount : Nat) : BlindedCredit :=
  ⟨Value.ofNat amount, ⟨0, List.replicate 16 7, false⟩, []⟩

/-- The deposit of a credit into a new account. -/
def fillAccount (amount : Nat) : Option Err × Account × Bank InMem.NonceLocker :=
  (emptyBankAccount [1]).deposit exampleBank [1] [sourceCredit amount] ⟨.new, .new⟩

theorem filled_fillAccount {amount : Nat} (h : (fillAccount amount).1 = none) :
    Filled exampleBank InMem.balanceOf [sourceCredit amount]
      ⟨(fillAccount amount).2.1, (fillAccount amount).2.2⟩ := by
  have hempty : Filled exampleBank InMem.balanceOf [] ⟨emptyBankAccount [1], ⟨.new, .new⟩⟩ :=
    .empty (by decide)
  exact .deposit hempty (Prod.ext h rfl)

theorem splitsWithinLimit_iff_ten :
    let cfg : Holdings.Config := ⟨Value.ofNat 10, Value.ofNat 1⟩
    let s : Owned (Bank InMem.NonceLocker) := ⟨(fillAccount 10).2.1, (fillAccount 10).2.2⟩
    newWallet ⟨10, 1⟩ = .ok cfg ∧ Filled exampleBank InMem.balanceOf [sourceCredit 10] s ∧
      routeAccount cfg false s.account = .withdraw ∧ SplitsWithinLimit cfg s.account := by
  intro cfg s
  have hnew : newWallet ⟨10, 1⟩ = .ok cfg := by decide +kernel
  have hfilled : Filled exampleBank InMem.balanceOf [sourceCredit 10] s :=
    filled_fillAccount (by decide +kernel)
  have hroute : routeAccount cfg false s.account = .withdraw := by decide +kernel
  refine ⟨hnew, hfilled, hroute, ?_⟩
  exact (splitsWithinLimit_iff exampleBank_lawful hnew hfilled hroute).2 (by decide +kernel)

/-- `New` accepts a source amount of 16 prefetch amounts, and the account that is filled with it is
split into 16 credits. -/
theorem split_sixteen_credits :
    let cfg : Holdings.Config := ⟨Value.ofNat 16, Value.ofNat 1⟩
    let s : Owned (Bank InMem.NonceLocker) := ⟨(fillAccount 16).2.1, (fillAccount 16).2.2⟩
    newWallet ⟨16, 1⟩ = .ok cfg ∧ Filled exampleBank InMem.balanceOf [sourceCredit 16] s ∧
      routeAccount cfg false s.account = .withdraw ∧
      splitWithdrawal cfg s.account = some { credits := 16, amount := Value.ofNat 1 } ∧
      ¬ SplitsWithinLimit cfg s.account := by
  intro cfg s
  have hsplit : splitWithdrawal cfg s.account =
      some { credits := 16, amount := Value.ofNat 1 } := by
    decide +kernel
  refine ⟨by decide +kernel, filled_fillAccount (by decide +kernel), by decide +kernel, hsplit, ?_⟩
  rintro ⟨-, w, hw, -, hcredits⟩
  rw [hsplit, Option.some.injEq] at hw
  rw [← hw] at hcredits
  exact absurd hcredits (by decide)

/-! ## Batches that are too long -/

theorem limitsBatches_inMem {L : Type} (issuer : Issuer) (nl : Anonpay.NonceLocker L)
    (roundFunc : Int → Except Err Value) (d : Draw) :
    LimitsBatches (InMem.bank issuer nl roundFunc d) := by
  intro transferID account reqs b hlen
  have hmax : (maxReqs : Int) = maxBatchLen := rfl
  have hne : ¬ reqs.length = 0 := by
    unfold maxBatchLen at hlen
    omega
  have hmany : reqs.length > maxReqs := by omega
  simp only [InMem.bank, Ledger.withdrawBatch, if_neg hne, if_pos hmany]
  exact ⟨_, _, rfl⟩

theorem withdrawBatch_refused (hlimit : LimitsBatches bb.bank) (transferID account : Bytes)
    (draw : Nat → Draw) {credits : Int} (h : maxBatchLen < credits) (amount : Value) (b : B) :
    ∃ e b', bb.withdrawBatch transferID account draw credits amount b = (.error e, b') := by
  obtain ⟨e, hr, -⟩ | ⟨-, state, hstate, ⟨e, e', b', hr, -⟩ |
      ⟨newBalance, signatures, b', hbank, -⟩⟩ :=
    BlindBank.withdrawBatch_cases bb transferID account draw credits amount b
  · exact ⟨e, b, hr⟩
  · exact ⟨e, b', hr⟩
  · -- one request was begun for each credit
    have hlen := congrArg List.length (beginCredits_ok hstate)
    simp only [List.length_map, List.length_replicate, List.length_range] at hlen
    have hmany : maxBatchLen < (state.map (·.request)).length := by
      rw [List.length_map, hlen]
      omega
    obtain ⟨e, b'', hrefused⟩ := hlimit transferID account _ b hmany
    rw [hrefused] at hbank
    cases hbank

/-- The transfer of a split beyond the limit fails. -/
theorem splitAccount_refused (hlimit : LimitsBatches bb.bank) {cfg : Holdings.Config}
    {s : Holdings B} {i : Nat} {acc : Account} (hi : s.accounts[i]? = some acc) {w : Withdrawal}
    (hw : splitWithdrawal cfg acc = some w) (hmany : maxBatchLen < w.credits) (env : ProcessEnv)
    (wenv : WithdrawEnv) : s.step bb balanceOf cfg (.splitAccount env wenv i) = none := by
  rw [Option.eq_none_iff_forall_ne_some]
  intro s' hstep
  simp only [Holdings.step, Option.bind_eq_bind, Option.bind_eq_some_iff, hi, Option.some.injEq,
    exists_eq_left'] at hstep
  rw [splitWithdrawal] at hw
  split at hw
  · cases hw
  · next hne =>
    rw [if_neg hne] at hstep
    rw [Option.some.inj hw] at hstep
    obtain ⟨id, credits, gain, s₁, s₂, hwithdraw, -⟩ := Holdings.transfer_eq_some hstep
    have hfull : w ≠ fullWithdrawal := by
      rw [← Option.some.inj hw]
      simp [fullWithdrawal]
    simp only [Holdings.accountWithdrawable, Option.bind_eq_bind, Option.bind_eq_some_iff, hi,
      Option.some.injEq, exists_eq_left', Option.pure_def, Prod.mk.injEq] at hwithdraw
    obtain ⟨hr, -⟩ := hwithdraw
    obtain ⟨e, b', hrefused⟩ :=
      withdrawBatch_refused hlimit id acc.token wenv.draw hmany w.amount s.bank
    rw [Account.withdraw, if_neg hfull] at hr
    simp only [hrefused] at hr
    split at hr
    · cases hr
    · cases hr

end Wallet
