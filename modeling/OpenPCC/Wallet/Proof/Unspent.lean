import OpenPCC.Anonpay.Proof.Redeem
import OpenPCC.Wallet.Config
import OpenPCC.Wallet.Proof.Holdings

/-!
# Consolidation of what a payment returns

A payment result is exchanged for a new credit, which is deposited into an account. A bank that
redeems credits does both for every credit that is worth something (`exchange_of_redeems`), and
refuses to exchange a credit of zero. `NewPaymentResult` accepts both.
-/

namespace Wallet

open Go Anonpay

variable {B : Type} {bb : BlindBank B} {Usable : B → Nonce → Prop}

/-! ## The exchange -/

theorem exchange_of_redeems (H : bb.bank.Redeems bb.payee Usable) {credit : AnyCredit} {b : B}
    {amount : Int} (hverify : bb.payee.verifyCredit credit = none)
    (husable : Usable b credit.nonce) (hamount : credit.value.amount = .ok amount)
    (hpos : 0 < amount) {d : Draw} {state : BlindSignState}
    (hbegin : beginBlindedCredit bb.payee d credit.value = .ok state) (transferID : Bytes) :
    ∃ exchanged b', bb.exchange transferID d credit b = (.ok exchanged, b') ∧
      exchanged.value = credit.value ∧ exchanged.nonce = state.nonce ∧
      bb.payee.verifyCredit (.blinded exchanged) = none ∧
      ∀ n, n.nonce ≠ credit.nonce.nonce → Usable b n → Usable b' n := by
  have hnew : bb.payee.newUnsignedCredit d credit.value =
      .ok (state.blindedMessage, state.nonce, state.state) ∧ state.value = credit.value := by
    unfold beginBlindedCredit at hbegin
    split at hbegin
    · cases hbegin
    · next blindedMessage nonce s hunsigned =>
      cases hbegin
      exact ⟨hunsigned, rfl⟩
  obtain ⟨blindSignature, signature, b', hexchange, hfinalize, hverify', hothers⟩ :=
    H.exchange_ok transferID hverify husable hamount hpos hnew.1
  refine ⟨⟨credit.value, state.nonce, signature⟩, b', ?_, rfl, rfl, hverify', hothers⟩
  simp only [BlindBank.exchange, hbegin, BlindSignState.request, BlindSignState.finalize, hnew.2,
    hexchange, hfinalize]

theorem exchange_of_zero (H : bb.bank.Redeems bb.payee Usable) {credit : AnyCredit}
    (hzero : credit.value.amount = .ok 0) (transferID : Bytes) (d : Draw) (b : B) :
    ∃ e b', bb.exchange transferID d credit b = (.error e, b') := by
  unfold BlindBank.exchange
  cases hbegin : beginBlindedCredit bb.payee d credit.value with
  | error e => exact ⟨_, _, rfl⟩
  | ok state =>
    obtain ⟨e, b', hexchange⟩ := H.exchange_zero transferID state.request b hzero
    simp only [hexchange]
    exact ⟨_, _, rfl⟩

theorem Account.deposit_one {a : Account} {transferID : Bytes} {credit : BlindedCredit} {b b' : B}
    {balance : Int} (h : bb.bank.deposit transferID a.token credit b = (.ok balance, b')) :
    a.deposit bb transferID [credit] b = (none, { a with balance }, b') := by
  simp [Account.deposit, BlindBank.deposit, BlindBank.depositLoop, h]

/-! ## The transfer -/

theorem newPaymentResult_eq_ok {credit : AnyCredit} {result : PaymentResult}
    (h : newPaymentResult credit = .ok result) :
    result = { unspend := credit } ∧ ∃ amount, credit.value.amount = .ok amount := by
  unfold newPaymentResult at h
  split at h
  · cases h
  · next amount hamount =>
    cases h
    exact ⟨rfl, amount, hamount⟩

namespace Holdings

variable {balanceOf : B → Bytes → Int} {cfg : Config} {s : Holdings B} {env : ProcessEnv}
  {wenv : WithdrawEnv} {credit : AnyCredit} {i j : Nat} {acc : Account}

theorem consolidate_of_exchange (henv : env.Quiet) (hj : s.results[j]? = some { unspend := credit })
    (hi : s.accounts[i]? = some acc)
    (hok : ∀ id, ∃ exchanged b' balance b'',
      bb.exchange id (wenv.draw 0) credit s.bank = (.ok exchanged, b') ∧
        bb.bank.deposit id acc.token exchanged b' = (.ok balance, b'')) :
    s.Enabled bb balanceOf cfg (.consolidate env wenv (.paymentResult j) i) := by
  obtain ⟨⟨id, hid⟩, hbefore, hbetween⟩ := henv
  obtain ⟨exchanged, b', balance, b'', hexchange, hdeposit⟩ := hok id
  have hdeposit := Account.deposit_one hdeposit
  simp [Enabled, Holdings.step, transfer, process, Consolidatable.withdrawable,
    paymentResultWithdrawable, accountDepositable, hid, hbefore, hbetween, hi, hj,
    PaymentResult.withdraw, hexchange, depositWithdrawn, unequalAmounts, hdeposit]

theorem exchange_of_consolidate (hj : s.results[j]? = some { unspend := credit })
    (h : s.Enabled bb balanceOf cfg (.consolidate env wenv (.paymentResult j) i)) :
    ∃ id exchanged b', bb.exchange id (wenv.draw 0) credit s.bank = (.ok exchanged, b') := by
  obtain ⟨s', hs'⟩ := Option.isSome_iff_exists.1 h
  rw [Holdings.step] at hs'
  obtain ⟨id, credits, gain, s₁, s₂, hwithdraw, -, -, -⟩ := transfer_eq_some hs'
  simp only [Consolidatable.withdrawable, paymentResultWithdrawable, Option.bind_eq_bind,
    Option.bind_eq_some_iff, hj, Option.some.injEq, exists_eq_left', Option.pure_def,
    Prod.mk.injEq] at hwithdraw
  obtain ⟨hr, -⟩ := hwithdraw
  cases hexchange : bb.exchange id (wenv.draw 0) credit s.bank with
  | mk res b' =>
    cases res with
    | error e => simp [PaymentResult.withdraw, hexchange] at hr
    | ok exchanged => exact ⟨id, exchanged, b', hexchange⟩

/-- What a payment returns can be consolidated, at a bank that redeems credits, if it is not a
credit of zero. -/
theorem refund_consolidates_iff (H : bb.bank.Redeems bb.payee Usable) {result : PaymentResult}
    (hresult : newPaymentResult credit = .ok result) (hj : s.results[j]? = some result)
    (hi : s.accounts[i]? = some acc) (hverify : bb.payee.verifyCredit credit = none)
    (husable : Usable s.bank credit.nonce) (henv : env.Quiet) {state : BlindSignState}
    (hbegin : beginBlindedCredit bb.payee (wenv.draw 0) credit.value = .ok state)
    (hfresh : state.nonce.nonce ≠ credit.nonce.nonce) (hnew : Usable s.bank state.nonce) :
    s.Enabled bb balanceOf cfg (.consolidate env wenv (.paymentResult j) i) ↔
      credit.value.amountOrZero ≠ 0 := by
  obtain ⟨rfl, amount, hamount⟩ := newPaymentResult_eq_ok hresult
  rw [Value.amountOrZero_eq hamount]
  constructor
  · rintro henabled rfl
    obtain ⟨id, exchanged, b', hexchange⟩ := exchange_of_consolidate hj henabled
    obtain ⟨e, b'', herror⟩ := exchange_of_zero H hamount id (wenv.draw 0) s.bank
    rw [hexchange] at herror
    cases herror
  · intro hne
    have hpos : 0 < amount := lt_of_le_of_ne (Value.amount_bounds hamount).1 (Ne.symm hne)
    refine consolidate_of_exchange henv hj hi fun id => ?_
    obtain ⟨exchanged, b', hexchange, hvalue, hnonce, hverify', hothers⟩ :=
      exchange_of_redeems H hverify husable hamount hpos hbegin id
    have husable' : Usable b' exchanged.nonce := by
      rw [hnonce]
      exact hothers _ hfresh hnew
    have hamount' : exchanged.value.amount = .ok amount := by
      rw [hvalue]
      exact hamount
    obtain ⟨balance, b'', hdeposit⟩ := H.deposit_ok id acc.token hverify' husable' hamount' hpos
    exact ⟨exchanged, b', balance, b'', hexchange, hdeposit⟩

theorem exampleBank_redeems :
    exampleBank.bank.Redeems exampleBank.payee (InMem.Usable 0) := by
  have hsound : Scheme.accepting.Sound := by
    intro msg metadata r rInv blindedMessage state _
    exact ⟨[], [], rfl, rfl, rfl⟩
  simp only [exampleBank]
  exact InMem.redeems _ _ _ hsound

/-- A wallet with an empty account and one payment result. -/
def withResult (credit : UnblindedCredit) : Holdings (Bank InMem.NonceLocker) where
  bank := ⟨.new, .new⟩
  accounts := [emptyBankAccount [1]]
  results := [{ unspend := .unblinded credit }]

/-- The draw of the new credit. -/
def refundEnv : WithdrawEnv :=
  ⟨fun _ => ⟨.ok ([], []), .ok ⟨0, List.replicate 16 8, false⟩⟩, none⟩

theorem usable_new {k : UInt8} :
    InMem.Usable 0 ⟨.new, .new⟩ ⟨0, List.replicate 16 k, false⟩ where
  length := List.length_replicate
  valid := rfl
  free := InMem.NonceLocker.status_new _

theorem refund_consolidates_iff_two :
    let two : UnblindedCredit := ⟨Value.ofNat 2, ⟨0, List.replicate 16 5, false⟩, []⟩
    newPaymentResult (.unblinded two) = .ok { unspend := .unblinded two } ∧
      (withResult two).Enabled exampleBank InMem.balanceOf ⟨Value.ofNat 5, Value.ofNat 4⟩
        (.consolidate { id := .ok [1] } refundEnv (.paymentResult 0) 0) := by
  intro two
  have hresult : newPaymentResult (.unblinded two) = .ok { unspend := .unblinded two } := by
    decide
  have henv : ({ id := .ok [1] } : ProcessEnv).Quiet := ⟨⟨_, rfl⟩, rfl, rfl⟩
  have hbegin : beginBlindedCredit exampleBank.payee (refundEnv.draw 0) (Value.ofNat 2) =
      .ok ⟨Value.ofNat 2, [], ⟨0, List.replicate 16 8, false⟩, []⟩ := rfl
  refine ⟨hresult, (refund_consolidates_iff (s := withResult two) exampleBank_redeems hresult rfl
    rfl rfl usable_new henv hbegin ?_ usable_new).2 ?_⟩
  · decide
  · decide

/-- A payment that used up its credit gets a refund of zero, which is accepted and not consolidated
afterwards. -/
theorem zero_refund_not_consolidated :
    let draw : Draw := ⟨.ok ([], []), .ok ⟨0, List.replicate 16 5, false⟩⟩
    let zero : UnblindedCredit := ⟨zeroValue, ⟨0, List.replicate 16 5, false⟩, []⟩
    exampleBank.payee.issueUnblindedCredit draw zeroValue = .ok zero ∧
      newPaymentResult (.unblinded zero) = .ok { unspend := .unblinded zero } ∧
      exampleBank.bank.Redeems exampleBank.payee (InMem.Usable 0) ∧
      InMem.Usable 0 (withResult zero).bank zero.nonce ∧
      ¬ (withResult zero).Enabled exampleBank InMem.balanceOf ⟨Value.ofNat 5, Value.ofNat 4⟩
        (.consolidate { id := .ok [1] } refundEnv (.paymentResult 0) 0) :=
  ⟨by decide, by decide, exampleBank_redeems, usable_new, by decide +kernel⟩

end Holdings

end Wallet
