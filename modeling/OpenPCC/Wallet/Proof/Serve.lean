import OpenPCC.Anonpay.Proof.Rounded
import OpenPCC.Wallet.Config
import OpenPCC.Wallet.Proof.Holdings

/-!
# Payments from bank batches

All credits of the bank batches have the prefetch amount (`Stocked`), in every run and with any
bank. A payment request asks for a credit of its own amount, and a stack hands out a credit only if
the amounts are the same; so a payment that is rounded to less than the prefetch amount is not
served.
-/

namespace Wallet

open Go Anonpay

variable {B : Type}

/-! ## The value of a payment -/

theorem roundAmount_eq_ok {amount : Int} {val : Value} (h : roundAmount amount = .ok val) :
    val.shift = false ∧ IsLeast {n : Int | canRepresent n ∧ amount ≤ n} val.amountOrZero := by
  have hnotError : ∀ e, rounded (float64 amount) 1 ≠ .error e := by
    intro e he
    rw [roundAmount, he] at h
    cases h
  have h0 : 0 ≤ amount := by
    by_contra hneg
    have hfloat : float64 (amount : Rat) < 0 := float64_neg (Int.cast_lt_zero.2 (not_le.1 hneg))
    exact hnotError _ (by rw [rounded, if_pos hfloat])
  have hceil : ⌈float64 (amount : Rat)⌉ ≤ maxAmount := by
    by_contra hgt
    obtain ⟨e, he⟩ := rounded_of_gt (not_le.1 hgt) 1
    exact hnotError e he
  -- beyond `2 ^ 53` the conversion may round, but not to an amount that has a value
  have hlt : amount < 2 ^ 53 := by
    by_contra hge
    have hfloat : (2 ^ 53 : Int) ≤ ⌈float64 (amount : Rat)⌉ := by
      have hle := le_float64_intCast (not_lt.1 hge)
      exact_mod_cast hle.trans (Int.le_ceil _)
    have hmax : maxAmount < 2 ^ 53 := by decide
    omega
  have hfloat : float64 (amount : Rat) = amount := float64_intCast (by rwa [abs_of_nonneg h0])
  rw [hfloat, Int.ceil_intCast] at hceil
  obtain ⟨n, rfl⟩ := Int.eq_ofNat_of_zero_le h0
  obtain ⟨v, hv, hshift, hleast⟩ := rounded_one hceil
  rw [roundAmount, hfloat, Int.cast_natCast, hv, Except.ok.injEq] at h
  subst h
  exact ⟨hshift, hleast⟩

theorem beginPayment_eq_ok {prefetchAmount : Int} {p p' : Payments} {rounded : Except Err Value}
    (h : p.beginPayment prefetchAmount rounded = .ok p') :
    ∃ val, rounded = .ok val ∧ val.amountOrZero ≤ prefetchAmount ∧
      p'.phases = p.phases ++ [.enqueueing (newPaymentRequest val)] := by
  unfold Payments.beginPayment at h
  split at h
  · cases h
  · next val =>
    split at h
    · cases h
    · next hle =>
      split at h
      · cases h
      · cases h
        exact ⟨val, rfl, not_lt.1 hle, rfl⟩

/-! ## Stacks of one amount -/

namespace CreditStack

variable {st st' : CreditStack} {amount : Value} {id : Bytes} {credits : List BlindedCredit}

/-- The credits have the amount, which is also that of the stack unless it is empty. -/
def Holds (st : CreditStack) (amount : Value) : Prop :=
  ∀ c ∈ st.credits, c.value = amount ∧ st.creditAmount = amount

theorem Holds.withdraw {w : Withdrawal} {gain : Int} (hs : st.Holds amount)
    (h : st.withdraw w = some (.ok (credits, gain, st'))) : st'.Holds amount := by
  obtain ⟨-, hcredits, hamount⟩ := withdraw_ok h
  intro c hc
  rw [hamount]
  exact hs c (by rw [hcredits]; exact List.mem_append_right _ hc)

theorem holds_of_deposit (h : st.deposit id credits = .ok st')
    (hcredits : ∀ c ∈ credits, c.value = amount) : st'.Holds amount := by
  unfold deposit at h
  split at h
  · cases h
  · split at h
    · cases h
    · next first rest =>
      split at h
      · cases h
      · cases h
        exact fun c hc => ⟨hcredits c hc, hcredits first (List.mem_cons_self ..)⟩

theorem withdraw_one_iff :
    (∃ r, st.withdraw { credits := 1, amount } = some (.ok r)) ↔
      st.credits ≠ [] ∧ st.creditAmount = amount := by
  have hfull : ({ credits := 1, amount } : Withdrawal) ≠ fullWithdrawal := by
    simp [fullWithdrawal]
  cases hs : st.credits with
  | nil => simp [withdraw, canWithdrawNoLock, hs]
  | cons credit rest =>
    by_cases hamount : st.creditAmount = amount
    · simp [withdraw, canWithdrawNoLock, hs, hfull, hamount]
    · simp [withdraw, canWithdrawNoLock, hs, hfull, hamount]

end CreditStack

theorem Account.withdraw_values {bb : BlindBank B} {a a' : Account} {b b' : B} {id : Bytes}
    {env : WithdrawEnv} {w : Withdrawal} {credits : List BlindedCredit} {gain : Int}
    (hw : w ≠ fullWithdrawal) (h : a.withdraw bb id env w b = (.ok (credits, gain), a', b')) :
    ∀ c ∈ credits, c.value = w.amount := by
  rw [Account.withdraw, if_neg hw] at h
  simp only at h
  split at h
  · cases h
  · obtain ⟨e, hr, -⟩ | ⟨-, state, hstate, ⟨e, e', b₁, hr, -⟩ |
        ⟨newBalance, signatures, b₁, -, ⟨e, hr, -⟩ | ⟨withdrawn, hr, hfinal⟩⟩⟩ :=
      BlindBank.withdrawBatch_cases bb id a.token env.draw w.credits w.amount b
    · rw [hr] at h
      cases h
    · rw [hr] at h
      cases h
    · rw [hr] at h
      cases h
    · rw [hr] at h
      cases h
      have hvalues := (BlindBank.finalizeBatch_ok hfinal).trans (beginCredits_ok hstate)
      intro c hc
      exact (List.eq_replicate_iff.1 hvalues).2 c.value (List.mem_map_of_mem hc)

/-! ## Batches of the prefetch amount -/

namespace Holdings

variable {bb : BlindBank B} {balanceOf : B → Bytes → Int} {cfg : Config} {s s' : Holdings B}

/-- The bank batches hold credits of the prefetch amount. -/
def Stocked (cfg : Config) (s : Holdings B) : Prop :=
  ∀ batch ∈ s.batches, batch.Holds cfg.prefetchAmount

section

variable {id : Bytes} {w : Withdrawal} {credits : List BlindedCredit} {i : Nat}

theorem accountWithdraw_batches {env : WithdrawEnv}
    {r : Except WithdrawErr (List BlindedCredit × Int)}
    (h : (accountWithdrawable bb env i).withdraw id w s = some (r, s')) :
    s'.batches = s.batches := by
  simp only [accountWithdrawable, Option.bind_eq_bind, Option.bind_eq_some_iff, Option.pure_def,
    Option.some.injEq, Prod.mk.injEq] at h
  obtain ⟨acc, -, -, rfl⟩ := h
  rfl

theorem accountDeposit_batches {err : Option Err}
    (h : (accountDepositable bb i).deposit id credits s = (err, s')) : s'.batches = s.batches := by
  simp only [accountDepositable] at h
  split at h
  · cases h
    rfl
  · cases h
    rfl

theorem paymentRequestDeposit_batches {desiredAmount : Value} {err : Option Err}
    (h : (paymentRequestDepositable desiredAmount).deposit id credits s = (err, s')) :
    s'.batches = s.batches := by
  simp only [paymentRequestDepositable] at h
  split at h
  · cases h
    rfl
  · cases h
    rfl

theorem paymentResultWithdraw_batches {draw : Draw}
    {r : Except WithdrawErr (List BlindedCredit × Int)}
    (h : (paymentResultWithdrawable bb draw i).withdraw id w s = some (r, s')) :
    s'.batches = s.batches := by
  simp only [paymentResultWithdrawable, Option.bind_eq_bind, Option.bind_eq_some_iff,
    Option.pure_def, Option.some.injEq, Prod.mk.injEq] at h
  obtain ⟨result, -, -, rfl⟩ := h
  rfl

theorem Stocked.bankBatchWithdraw (hs : s.Stocked cfg) {gain : Int}
    (h : (bankBatchWithdrawable i).withdraw id w s = some (.ok (credits, gain), s')) :
    s'.Stocked cfg := by
  simp only [bankBatchWithdrawable, Option.bind_eq_bind, Option.bind_eq_some_iff,
    Option.pure_def] at h
  obtain ⟨batch, hi, r, hr, h⟩ := h
  cases r with
  | error e => cases h
  | ok r =>
    obtain ⟨credits', gain', batch'⟩ := r
    cases h
    intro x hx
    rcases List.mem_or_eq_of_mem_set hx with hx | rfl
    · exact hs x hx
    · exact (hs batch (List.mem_of_getElem? hi)).withdraw hr

theorem Stocked.bankBatchDeposit (hs : s.Stocked cfg)
    (hcredits : ∀ c ∈ credits, c.value = cfg.prefetchAmount)
    (h : bankBatchDepositable.deposit id credits s = (none, s')) : s'.Stocked cfg := by
  simp only [bankBatchDepositable] at h
  split at h
  · cases h
  · next batch hbatch =>
    cases h
    intro x hx
    rcases List.mem_append.1 hx with hx | hx
    · exact hs x hx
    · rw [List.mem_singleton.1 hx]
      exact CreditStack.holds_of_deposit hbatch hcredits

end

theorem Stocked.of_batches (hs : s.Stocked cfg) (h : s'.batches = s.batches) : s'.Stocked cfg := by
  intro batch hbatch
  exact hs batch (h ▸ hbatch)

theorem Stocked.of_transfer {env : ProcessEnv} {intent : Intent (Holdings B)}
    {count : Transfer → WalletStats → WalletStats} (h : s.transfer env intent count = some s')
    (hends : ∀ id credits gain s₁ s₂,
      intent.src.withdraw id intent.withdrawal s = some (.ok (credits, gain), s₁) →
      intent.dst.deposit id credits s₁ = (none, s₂) → s₂.Stocked cfg) :
    s'.Stocked cfg := by
  obtain ⟨id, credits, gain, s₁, s₂, hwithdraw, -, hdeposit, rfl⟩ := transfer_eq_some h
  exact hends id credits gain s₁ s₂ hwithdraw hdeposit

theorem Stocked.step {act : Act B} (hs : s.Stocked cfg)
    (h : s.step bb balanceOf cfg act = some s') : s'.Stocked cfg := by
  cases act with
  | newAccount token =>
    rw [Holdings.step] at h
    split at h
    · cases h
      exact hs
    · cases h
  | otherClients bank =>
    rw [Holdings.step] at h
    split at h
    · cases h
      exact hs
    · cases h
  | provideAccount env svc i =>
    rw [Holdings.step] at h
    refine .of_transfer h fun id credits gain s₁ s₂ hwithdraw hdeposit => ?_
    simp only [sourceWithdrawable, Option.some.injEq, Prod.mk.injEq] at hwithdraw
    obtain ⟨-, rfl⟩ := hwithdraw
    exact hs.of_batches (accountDeposit_batches hdeposit)
  | splitAccount env wenv i =>
    -- the only step that makes a batch
    simp only [Holdings.step, Option.bind_eq_bind, Option.bind_eq_some_iff] at h
    obtain ⟨acc, -, h⟩ := h
    split at h
    · cases h
    refine .of_transfer h fun id credits gain s₁ s₂ hwithdraw hdeposit => ?_
    refine (hs.of_batches (accountWithdraw_batches hwithdraw)).bankBatchDeposit ?_ hdeposit
    simp only [accountWithdrawable, Option.bind_eq_bind, Option.bind_eq_some_iff, Option.pure_def,
      Option.some.injEq, Prod.mk.injEq] at hwithdraw
    obtain ⟨acc', -, hr, -⟩ := hwithdraw
    exact Account.withdraw_values (by simp [fullWithdrawal]) (Prod.ext hr rfl)
  | paymentRequest env i desiredAmount =>
    rw [Holdings.step] at h
    refine .of_transfer h fun id credits gain s₁ s₂ hwithdraw hdeposit => ?_
    exact (hs.bankBatchWithdraw hwithdraw).of_batches (paymentRequestDeposit_batches hdeposit)
  | consolidate env wenv src i =>
    rw [Holdings.step] at h
    refine .of_transfer h fun id credits gain s₁ s₂ hwithdraw hdeposit => ?_
    have hsrc : s₁.Stocked cfg := by
      cases src with
      | account j => exact hs.of_batches (accountWithdraw_batches hwithdraw)
      | bankBatch j => exact hs.bankBatchWithdraw hwithdraw
      | paymentResult j => exact hs.of_batches (paymentResultWithdraw_batches hwithdraw)
    exact hsrc.of_batches (accountDeposit_batches hdeposit)
  | accountToSource env wenv svc i =>
    rw [Holdings.step] at h
    refine .of_transfer h fun id credits gain s₁ s₂ hwithdraw hdeposit => ?_
    simp only [sourceDepositable, Prod.mk.injEq] at hdeposit
    obtain ⟨-, rfl⟩ := hdeposit
    exact hs.of_batches (accountWithdraw_batches hwithdraw)
  | bankBatchToSource env svc i =>
    rw [Holdings.step] at h
    refine .of_transfer h fun id credits gain s₁ s₂ hwithdraw hdeposit => ?_
    simp only [sourceDepositable, Prod.mk.injEq] at hdeposit
    obtain ⟨-, rfl⟩ := hdeposit
    exact hs.bankBatchWithdraw hwithdraw
  | paymentResult unspend =>
    rw [Holdings.step] at h
    split at h
    · cases h
    · cases h
      exact hs

theorem stocked_of_run {bank : B} {acts : List (Act B)}
    (h : Trace.Along (next bb balanceOf cfg) (Enabled bb balanceOf cfg) { bank } acts) :
    (acts.foldl (next bb balanceOf cfg) { bank }).Stocked cfg := by
  have hnew : ({ bank } : Holdings B).Stocked cfg := by simp [Stocked]
  refine (Trace.always_of_step (P := Stocked cfg) (E := Enabled bb balanceOf cfg) ?_ hnew h).last
  intro s a hs ha
  obtain ⟨s', hs'⟩ := Option.isSome_iff_exists.1 ha
  rw [next, hs', Option.getD_some]
  exact hs.step hs'

/-! ## The transfer to a payment -/

section

variable {env : ProcessEnv} {i : Nat} {batch batch' : CreditStack} {val : Value}

theorem withdraw_of_paymentRequest (hbatch : s.batches[i]? = some batch)
    (h : s.step bb balanceOf cfg (.paymentRequest env i val) = some s') :
    ∃ r, batch.withdraw { credits := 1, amount := val } = some (.ok r) := by
  rw [Holdings.step] at h
  obtain ⟨id, credits, gain, s₁, s₂, hwithdraw, -, -, -⟩ := transfer_eq_some h
  simp only [bankBatchWithdrawable, Option.bind_eq_bind, Option.bind_eq_some_iff, Option.pure_def,
    hbatch, Option.some.injEq, exists_eq_left'] at hwithdraw
  obtain ⟨r, hr, hwithdraw⟩ := hwithdraw
  cases r with
  | error e => cases hwithdraw
  | ok r => exact ⟨r, hr⟩

theorem paymentRequest_of_withdraw (henv : env.Quiet) (hbatch : s.batches[i]? = some batch)
    {credit : BlindedCredit} {gain : Int}
    (hr : batch.withdraw { credits := 1, amount := val } = some (.ok ([credit], gain, batch'))) :
    ∃ s' req', s.step bb balanceOf cfg (.paymentRequest env i val) = some s' ∧
      s'.requests = s.requests ++ [req'] ∧ req'.stack.credits = [credit] := by
  obtain ⟨⟨id, hid⟩, hbefore, hbetween⟩ := henv
  let req' : PaymentRequest := ⟨val, ⟨id, 1, [credit], credit.value⟩⟩
  let stats' : WalletStats := { s.stats with
    prefetchWithdraw.paymentRequests :=
      s.stats.prefetchWithdraw.paymentRequests.count gain [credit.value] }
  refine ⟨{ s with
    batches := s.batches.set i batch', requests := s.requests ++ [req'], stats := stats' },
    req', ?_, rfl, rfl⟩
  simp [Holdings.step, transfer, process, bankBatchWithdrawable, paymentRequestDepositable, hid,
    hbefore, hbetween, hbatch, hr, depositWithdrawn, unequalAmounts, PaymentRequest.deposit,
    newPaymentRequest, CreditStack.deposit, req', stats']

theorem serves_iff (henv : env.Quiet) (hbatch : s.batches[i]? = some batch)
    (hne : batch.credits ≠ []) (hholds : batch.Holds cfg.prefetchAmount) {amount : Int} :
    s.Serves bb balanceOf cfg env i (newPaymentRequest val) amount ↔
      val = cfg.prefetchAmount ∧ amount ≤ val.amountOrZero := by
  obtain ⟨first, hfirst⟩ := List.exists_mem_of_ne_nil _ hne
  have hstack : batch.creditAmount = cfg.prefetchAmount := (hholds first hfirst).2
  constructor
  · rintro ⟨s', req', credit, hstep, hreq, hcredit, hamount⟩
    obtain ⟨⟨credits, gain, batch'⟩, hr⟩ := withdraw_of_paymentRequest hbatch hstep
    have hval : val = cfg.prefetchAmount :=
      ((CreditStack.withdraw_one_iff.1 ⟨_, hr⟩).2.symm.trans hstack)
    obtain ⟨credit', hcredits, rfl, -⟩ := CreditStack.withdraw_one hr
    have hserved : ∃ s'' req'', s.step bb balanceOf cfg (.paymentRequest env i val) = some s'' ∧
        s''.requests = s.requests ++ [req''] ∧ req''.stack.credits = [credit'] :=
      paymentRequest_of_withdraw henv hbatch hr
    obtain ⟨s'', req'', hstep', hreq', hcredit'⟩ := hserved
    obtain rfl := Option.some.inj (hstep.symm.trans hstep')
    obtain rfl := List.singleton_inj.1 (List.append_cancel_left (hreq.symm.trans hreq'))
    obtain rfl := List.singleton_inj.1 (hcredit.symm.trans hcredit')
    have hvalue := (hholds credit (by rw [hcredits]; exact List.mem_cons_self ..)).1
    exact ⟨hval, by rw [hval, ← hvalue]; exact hamount⟩
  · rintro ⟨rfl, hamount⟩
    obtain ⟨⟨credits, gain, batch'⟩, hr⟩ := CreditStack.withdraw_one_iff.2 ⟨hne, hstack⟩
    obtain ⟨credit, hcredits, rfl, -⟩ := CreditStack.withdraw_one hr
    obtain ⟨s', req', hstep, hreq, hcredit⟩ := paymentRequest_of_withdraw henv hbatch hr
    have hvalue := (hholds credit (by rw [hcredits]; exact List.mem_cons_self ..)).1
    exact ⟨s', req', credit, hstep, hreq, hcredit, by rw [hvalue]; exact hamount⟩

end

/-- A payment that the wallet accepts is served from every bank batch that is not empty if its
amount is rounded up to the prefetch amount. -/
theorem payment_served_iff {config : Wallet.Config} (hnew : newWallet config = .ok cfg)
    {amount : Int} {p p' : Payments}
    (hbegin : p.beginPayment config.prefetchAmount (roundAmount amount) = .ok p')
    {bank : B} {acts : List (Act B)}
    (hrun : Trace.Along (next bb balanceOf cfg) (Enabled bb balanceOf cfg) { bank } acts)
    {i : Nat} {batch : CreditStack}
    (hbatch : (acts.foldl (next bb balanceOf cfg) { bank }).batches[i]? = some batch)
    (hne : batch.credits ≠ []) {env : ProcessEnv} (henv : env.Quiet) :
    ∃ req, p'.phases = p.phases ++ [.enqueueing req] ∧
      ((acts.foldl (next bb balanceOf cfg) { bank }).Serves bb balanceOf cfg env i req amount ↔
        ∀ n, canRepresent n → amount ≤ n → config.prefetchAmount ≤ n) := by
  obtain ⟨val, hval, hle, hphases⟩ := beginPayment_eq_ok hbegin
  obtain ⟨hshift, ⟨hrep, hamount⟩, hleast⟩ := roundAmount_eq_ok hval
  obtain ⟨-, -, -, hprefetch⟩ := newWallet_eq_ok hnew
  obtain ⟨hshift', hprefetch⟩ := exact_eq_ok_iff.1 hprefetch
  have hprefetchAmount := Value.amountOrZero_eq hprefetch
  have hholds := stocked_of_run hrun batch (List.mem_of_getElem? hbatch)
  refine ⟨_, hphases, (serves_iff henv hbatch hne hholds).trans ?_⟩
  constructor
  · rintro ⟨rfl, -⟩ n hn hge
    rw [← hprefetchAmount]
    exact hleast ⟨hn, hge⟩
  · intro h
    have heq : val.amountOrZero = config.prefetchAmount := le_antisymm hle (h _ hrep hamount)
    refine ⟨Value.ext_amount hshift hshift' ?_, hamount⟩
    have hdecode := heq.trans hprefetchAmount.symm
    rw [Value.amountOrZero_eq_decode hshift, Value.amountOrZero_eq_decode hshift'] at hdecode
    exact_mod_cast hdecode

/-- An account of 5 units gives a batch with one credit of 4. -/
def stockedRun : List (Act (Bank InMem.NonceLocker)) :=
  let env : ProcessEnv := { id := .ok [1] }
  let five : BlindedCredit := ⟨Value.ofNat 5, ⟨0, List.replicate 16 7, false⟩, []⟩
  let wenv : WithdrawEnv := ⟨fun _ => ⟨.ok ([], []), .ok ⟨0, List.replicate 16 8, false⟩⟩, none⟩
  [.newAccount [1], .provideAccount env ⟨fun _ _ => .ok five, fun _ _ => none⟩ 0,
    .splitAccount env wenv 0]

theorem payment_served_iff_prefetchAmount :
    let cfg : Config := ⟨Value.ofNat 5, Value.ofNat 4⟩
    let s := stockedRun.foldl (next exampleBank InMem.balanceOf cfg) { bank := ⟨.new, .new⟩ }
    newWallet ⟨5, 4⟩ = .ok cfg ∧ s.batches.map (·.numCredits) = [1] ∧
      ∃ req, s.Serves exampleBank InMem.balanceOf cfg { id := .ok [2] } 0 req 4 := by
  intro cfg s
  have hnew : newWallet ⟨5, 4⟩ = .ok cfg := by decide +kernel
  have hrun : Trace.Along (next exampleBank InMem.balanceOf cfg)
      (Enabled exampleBank InMem.balanceOf cfg) { bank := ⟨.new, .new⟩ } stockedRun := by
    decide +kernel
  have hsize : s.batches.map (·.numCredits) = [1] := by decide +kernel
  have hbatch : ∃ batch, s.batches[0]? = some batch ∧ batch.credits ≠ [] := by
    cases hs : s.batches with
    | nil => simp [hs] at hsize
    | cons batch rest =>
      refine ⟨batch, rfl, fun hnil => ?_⟩
      simp [hs, CreditStack.numCredits, hnil] at hsize
  obtain ⟨batch, hbatch, hne⟩ := hbatch
  have hbegin : ∃ p', ({} : Payments).beginPayment 4 (roundAmount 4) = .ok p' :=
    ⟨{ paymentsWG := 1, phases := [.enqueueing (newPaymentRequest (Value.ofNat 4))] },
      by decide +kernel⟩
  obtain ⟨p', hbegin⟩ := hbegin
  have henv : ({ id := .ok [2] } : ProcessEnv).Quiet := ⟨⟨_, rfl⟩, rfl, rfl⟩
  obtain ⟨req, -, hserves⟩ := payment_served_iff hnew hbegin hrun hbatch hne henv
  exact ⟨hnew, hsize, req, hserves.2 fun n _ hn => hn⟩

/-- A payment of 3 is accepted, and its transfer fails. -/
theorem payment_below_prefetchAmount :
    let cfg : Config := ⟨Value.ofNat 5, Value.ofNat 4⟩
    let s := stockedRun.foldl (next exampleBank InMem.balanceOf cfg) { bank := ⟨.new, .new⟩ }
    newWallet ⟨5, 4⟩ = .ok cfg ∧ s.batches.map (·.numCredits) = [1] ∧
      ({} : Payments).beginPayment 4 (roundAmount 3) =
        .ok { paymentsWG := 1, phases := [.enqueueing (newPaymentRequest (Value.ofNat 3))] } ∧
      ¬ s.Serves exampleBank InMem.balanceOf cfg { id := .ok [2] } 0
        (newPaymentRequest (Value.ofNat 3)) 3 := by
  refine ⟨by decide +kernel, by decide +kernel, by decide +kernel, ?_⟩
  rintro ⟨s', req', credit, hstep, -⟩
  have henabled := Option.isSome_of_eq_some hstep
  revert henabled
  decide +kernel

end Holdings

end Wallet
