import Mathlib.Algebra.Order.Group.Int
import OpenPCC.Anonpay.BankRun
import OpenPCC.Anonpay.Proof.Deposit

/-!
# Ledger conservation

`Conserved b deposited handedOut` ties the three places in which the bank keeps its books: the
balances, the mutations of the accounts and the rounding corrections. Every operation is a move of
one account (`Conserved.move`) or leaves the ledger alone, so it holds over every run
(`BankRun.Balanced.run`).
-/

namespace Anonpay

open Go World

/-- The sum of the balances, without wrap-around. -/
def Ledger.balances (b : Ledger) : Int := b.accounts.total (·.balance)

/-- The sum of all mutations of all accounts. -/
def Ledger.histories (b : Ledger) : Int := b.accounts.total (·.mutations.sum)

theorem Ledger.elim_lookup (b : Ledger) (account : Bytes) {f : StoredAccount → Int}
    (hf : f .zero = 0) :
    (b.accounts.lookup (keyForAccount account)).elim 0 f = f (b.stored account) := by
  unfold Ledger.stored
  cases b.accounts.lookup (keyForAccount account) with
  | none => exact hf.symm
  | some acc => rfl

section
variable (b : Ledger) (account : Bytes) (acc : StoredAccount) (rs : List Int)

theorem Ledger.balances_insert :
    Ledger.balances ⟨b.accounts.insert (keyForAccount account) acc, rs⟩ =
      b.balances - (b.stored account).balance + acc.balance := by
  unfold Ledger.balances
  rw [AList.total_insert, b.elim_lookup account rfl]

theorem Ledger.histories_insert :
    Ledger.histories ⟨b.accounts.insert (keyForAccount account) acc, rs⟩ =
      b.histories - (b.stored account).mutations.sum + acc.mutations.sum := by
  unfold Ledger.histories
  rw [AList.total_insert, b.elim_lookup account rfl]

end

/-! ## The invariant -/

structure Conserved (b : Ledger) (deposited handedOut : Int) : Prop where
  nonneg : ∀ k acc, b.accounts.lookup k = some acc → 0 ≤ acc.balance
  small : b.balances ≤ maxInt64
  histories : b.balances = b.histories - b.roundingMutations.sum
  handed : handedOut = deposited - b.balances - b.roundingMutations.sum

theorem Conserved.new : Conserved .new 0 0 :=
  ⟨nofun, by decide, rfl, rfl⟩

section
variable {b : Ledger} {dep out : Int}

theorem Conserved.stored_nonneg (h : Conserved b dep out) (account : Bytes) :
    0 ≤ (b.stored account).balance := by
  unfold Ledger.stored
  cases hl : b.accounts.lookup (keyForAccount account) with
  | none => exact Int.le_refl 0
  | some acc => exact h.nonneg _ _ hl

theorem Conserved.stored_le (h : Conserved b dep out) (account : Bytes) :
    (b.stored account).balance ≤ b.balances := by
  unfold Ledger.stored
  cases hl : b.accounts.lookup (keyForAccount account) with
  | none => exact AList.total_nonneg h.nonneg
  | some acc => exact AList.le_total h.nonneg hl

/-- Move an account to the balance `nb` with the mutation `m` and the rounding correction `c`. -/
theorem Conserved.move (h : Conserved b dep out) (account : Bytes) {nb m c dep' out' : Int}
    {rs : List Int} (hrs : rs.sum = b.roundingMutations.sum + c) (h0 : 0 ≤ nb)
    (hsmall : b.balances - (b.stored account).balance + nb ≤ maxInt64)
    (hm : nb - (b.stored account).balance = m - c) (hout : out' - out = dep' - dep - m) :
    Conserved ⟨b.accounts.insert (keyForAccount account)
      ⟨nb, (b.stored account).mutations ++ [m]⟩, rs⟩ dep' out' := by
  have hhist := h.histories
  have hhanded := h.handed
  have hbal := b.balances_insert account ⟨nb, (b.stored account).mutations ++ [m]⟩ rs
  have hmut := b.histories_insert account ⟨nb, (b.stored account).mutations ++ [m]⟩ rs
  simp only [List.sum_append, List.sum_singleton] at hbal hmut
  refine ⟨fun k acc hk => ?_, by omega, by dsimp only; omega, by dsimp only; omega⟩
  by_cases hkey : k = keyForAccount account
  · subst hkey
    rw [AList.lookup_insert, Option.some.injEq] at hk
    exact hk ▸ h0
  · rw [AList.lookup_insert_ne hkey] at hk
    exact h.nonneg k acc hk

end

/-! ## Deposits -/

section
variable {b : Ledger} {dep out : Int}

theorem Conserved.updateBalance (h : Conserved b dep out) (account : Bytes)
    {credit : BlindedCredit} {amount : Int} (hamount : credit.value.amount = .ok amount)
    (hpos : 0 < amount) (hrange : b.balances + amount ≤ maxInt64) :
    Conserved (b.updateBalance account amount credit).2 (dep + amount) out := by
  have hle := h.stored_le account
  have h0 := h.stored_nonneg account
  unfold Ledger.updateBalance
  dsimp only
  rw [int64_eq (by omega) (by omega), Value.amountOrZero_eq hamount]
  exact h.move account (c := 0) (by simp) (by omega) (by omega) (by omega) (by omega)

/-! ## Withdrawals -/

/-- The checks of `WithdrawBatch` sum the amounts, without wrap-around while they fit. -/
theorem sumRequests_ok {seen : List Bytes} {sum total : Int} {reqs : List BlindSignRequest}
    (h0 : 0 ≤ sum) (hfit : sum + reqs.length * maxAmount ≤ maxInt64)
    (h : sumRequests seen sum reqs = .ok total) :
    total = sum + (reqs.map (·.value.amountOrZero)).sum ∧ sum ≤ total := by
  induction reqs generalizing seen sum with
  | nil =>
    cases h
    simp
  | cons req reqs ih =>
    unfold sumRequests at h
    split at h
    · cases h
    · cases ha : req.value.amount with
      | error e => simp [ha] at h
      | ok amount =>
        have hb := Value.amount_bounds ha
        rw [List.length_cons] at hfit
        push_cast at hfit
        have hmax : 0 ≤ maxAmount := by decide
        have hlen : 0 ≤ (reqs.length : Int) * maxAmount :=
          Int.mul_nonneg (Int.natCast_nonneg _) hmax
        rw [Int.add_mul] at hfit
        simp only [ha] at h
        split at h
        · cases h
        · rw [int64_eq (by omega) (by omega)] at h
          obtain ⟨htotal, hle⟩ := ih (by omega) (by omega) h
          refine ⟨?_, by omega⟩
          rw [htotal, List.map_cons, List.sum_cons, Value.amountOrZero_eq ha]
          omega

theorem sumRequests_of_length {reqs : List BlindSignRequest} {total : Int}
    (hlen : reqs.length ≤ maxReqs) (h : sumRequests [] 0 reqs = .ok total) :
    total = (reqs.map (·.value.amountOrZero)).sum ∧ 0 ≤ total := by
  have hfit : 0 + (reqs.length : Int) * maxAmount ≤ maxInt64 := by
    unfold maxReqs at hlen
    unfold maxAmount maxInt64
    omega
  obtain ⟨htotal, h0⟩ := sumRequests_ok (Int.le_refl 0) hfit h
  exact ⟨by omega, h0⟩

theorem sumRequests_pos {seen : List Bytes} {sum total : Int} {reqs : List BlindSignRequest}
    (h : sumRequests seen sum reqs = .ok total) : ∀ req ∈ reqs, 0 < req.value.amountOrZero := by
  induction reqs generalizing seen sum with
  | nil => simp
  | cons req reqs ih =>
    unfold sumRequests at h
    split at h
    · cases h
    · cases ha : req.value.amount with
      | error e => simp [ha] at h
      | ok amount =>
        simp only [ha] at h
        split at h
        · cases h
        · rw [List.forall_mem_cons, Value.amountOrZero_eq ha]
          exact ⟨by omega, ih h⟩

theorem sum_amountOrZero_pos {reqs : List BlindSignRequest} {total : Int} (hne : reqs ≠ [])
    (h : sumRequests [] 0 reqs = .ok total) : 0 < (reqs.map (·.value.amountOrZero)).sum := by
  refine List.sum_pos _ (fun x hx => ?_) (by simpa using hne)
  obtain ⟨req, hreq, rfl⟩ := List.mem_map.1 hx
  exact sumRequests_pos h req hreq

/-- The checks of a batch that do not read the account. -/
def Grantable (issuer : Issuer) (reqs : List BlindSignRequest) : Prop :=
  reqs ≠ [] ∧ reqs.length ≤ maxReqs ∧ (∃ sum, sumRequests [] 0 reqs = .ok sum) ∧
    ∃ blindSignatures, blindSignRequests issuer 0 reqs = .ok blindSignatures

/-- A batch fails in the same way for every bank, or what it does depends on the balance only. -/
theorem withdrawBatch_form (issuer : Issuer) (account : Bytes) (reqs : List BlindSignRequest) :
    (¬ Grantable issuer reqs ∧
        ∃ e, ∀ b : Ledger, b.withdrawBatch issuer account reqs = (.error e, b)) ∨
      Grantable issuer reqs ∧ ∃ sum sigs, sum = (reqs.map (·.value.amountOrZero)).sum ∧ 0 < sum ∧
        ∀ b : Ledger, b.withdrawBatch issuer account reqs =
          if b.balance account < sum then (.error (.insufficientBalance (b.balance account)), b)
          else
            (.ok (int64 (b.balance account - sum), sigs),
              ⟨b.accounts.insert (keyForAccount account)
                ⟨int64 (b.balance account - sum),
                  (b.stored account).mutations ++ [int64 (-1 * sum)]⟩, b.roundingMutations⟩) := by
  unfold Ledger.withdrawBatch Grantable
  split
  next hzero => exact .inl ⟨fun h => h.1 (List.length_eq_zero_iff.1 hzero), _, fun _ => rfl⟩
  next hzero =>
  split
  next hmany => exact .inl ⟨fun h => absurd h.2.1 (not_le.2 hmany), _, fun _ => rfl⟩
  next hmany =>
  cases hsum : sumRequests [] 0 reqs with
  | error e => exact .inl ⟨by simp, _, fun _ => rfl⟩
  | ok sum =>
    cases blindSignRequests issuer 0 reqs with
    | error e => exact .inl ⟨by simp, _, fun _ => rfl⟩
    | ok sigs =>
      have hne : reqs ≠ [] := by simpa using hzero
      have htotal := (sumRequests_of_length (not_lt.1 hmany) hsum).1
      have hpos : 0 < sum := htotal ▸ sum_amountOrZero_pos hne hsum
      refine .inr ⟨⟨hne, not_lt.1 hmany, ⟨sum, rfl⟩, sigs, rfl⟩, sum, sigs, htotal, hpos,
        fun b => ?_⟩
      unfold Ledger.balance Ledger.stored
      obtain ⟨found, hfound⟩ : ∃ found, b.accounts.lookup (keyForAccount account) = found :=
        ⟨_, rfl⟩
      cases found with
      | none => simp [hfound, StoredAccount.zero, hpos]
      | some stored => simp only [hfound, Option.getD_some]

theorem withdrawBatch_cases (issuer : Issuer) (b : Ledger) (account : Bytes)
    (reqs : List BlindSignRequest) :
    (∃ e, b.withdrawBatch issuer account reqs = (.error e, b)) ∨
      ∃ sigs sum, sum = (reqs.map (·.value.amountOrZero)).sum ∧ 0 < sum ∧
        sum ≤ b.balance account ∧
        b.withdrawBatch issuer account reqs =
          (.ok (int64 (b.balance account - sum), sigs),
            ⟨b.accounts.insert (keyForAccount account)
              ⟨int64 (b.balance account - sum),
                (b.stored account).mutations ++ [int64 (-1 * sum)]⟩, b.roundingMutations⟩) := by
  obtain ⟨-, e, he⟩ | ⟨-, sum, sigs, hsum, hpos, hform⟩ := withdrawBatch_form issuer account reqs
  · exact .inl ⟨e, he b⟩
  · by_cases hlt : b.balance account < sum
    · exact .inl ⟨_, (hform b).trans (if_pos hlt)⟩
    · exact .inr ⟨sigs, sum, hsum, hpos, not_lt.1 hlt, (hform b).trans (if_neg hlt)⟩

theorem Conserved.withdrawBatch (h : Conserved b dep out) (issuer : Issuer) (account : Bytes)
    (reqs : List BlindSignRequest) :
    let r := b.withdrawBatch issuer account reqs
    (∃ e, r = (.error e, b)) ∨ (∃ a, r.1 = .ok a) ∧
      Conserved r.2 dep (out + (reqs.map (·.value.amountOrZero)).sum) := by
  rcases withdrawBatch_cases issuer b account reqs with he | ⟨sigs, sum, htotal, hpos, hle, hr⟩
  · exact .inl he
  · rw [Ledger.balance] at hle hr
    have hle' := h.stored_le account
    have hsmall := h.small
    refine .inr ⟨⟨_, congrArg Prod.fst hr⟩, ?_⟩
    have hneg : int64 (-1 * sum) = -sum := by
      rw [int64_eq_of_range (by omega) (by omega)]
      omega
    rw [hr, hneg, int64_eq (by omega) (by omega)]
    exact h.move account (c := 0) (by simp) (by omega) (by omega) (by omega) (by omega)

/-- The credit of a full withdrawal of `balance`. -/
def fullCredit (issuer : Issuer) (roundFunc : Int → Except Err Value) (d : Draw) (balance : Int) :
    Except Err UnblindedCredit :=
  if balance ≤ 0 then .error (.new "account does not exist" [])
  else if balance > maxAmount then
    .error (.new "can't withdraw balance over max currency amount" [])
  else match roundFunc balance with
  | .error e => .error e
  | .ok creditAmount =>
    match issuer.issueUnblindedCredit d creditAmount with
    | .error e => .error (.errorf "could not create credit: %w" [] e)
    | .ok credit => .ok credit

theorem withdrawFullUnblinded_form (issuer : Issuer) (roundFunc : Int → Except Err Value) (d : Draw)
    (b : Ledger) (account : Bytes) :
    b.withdrawFullUnblinded issuer roundFunc d account =
      match fullCredit issuer roundFunc d (b.balance account) with
      | .error e => (.error e, b)
      | .ok credit =>
        (.ok credit,
          ⟨b.accounts.insert (keyForAccount account)
            ⟨0, (b.stored account).mutations ++ [int64 (-1 * credit.value.amountOrZero)]⟩,
            b.roundingMutations ++
              [int64 (b.balance account - credit.value.amountOrZero)]⟩) := by
  unfold Ledger.withdrawFullUnblinded fullCredit Ledger.balance Ledger.stored
  obtain ⟨found, hfound⟩ : ∃ found, b.accounts.lookup (keyForAccount account) = found := ⟨_, rfl⟩
  cases found with
  | none => simp [hfound, StoredAccount.zero]
  | some stored =>
    simp only [hfound, Option.getD_some]
    by_cases hzero : stored.balance ≤ 0
    · simp only [if_pos hzero]
    · simp only [if_neg hzero]
      by_cases hmax : stored.balance > maxAmount
      · simp only [if_pos hmax]
      · simp only [if_neg hmax]
        cases roundFunc stored.balance with
        | error e => rfl
        | ok creditAmount =>
          cases hissue : issuer.issueUnblindedCredit d creditAmount with
          | error e => simp only [hissue]
          | ok credit =>
            have hvalue := Issuer.issueUnblindedCredit_value hissue
            subst hvalue
            simp only [hissue]

theorem withdrawFullUnblinded_cases (issuer : Issuer) (roundFunc : Int → Except Err Value)
    (d : Draw) (b : Ledger) (account : Bytes) :
    (∃ e, b.withdrawFullUnblinded issuer roundFunc d account = (.error e, b)) ∨
      ∃ credit, 0 < (b.stored account).balance ∧ (b.stored account).balance ≤ maxAmount ∧
        b.withdrawFullUnblinded issuer roundFunc d account =
          (.ok credit,
            ⟨b.accounts.insert (keyForAccount account)
              ⟨0, (b.stored account).mutations ++ [int64 (-1 * credit.value.amountOrZero)]⟩,
              b.roundingMutations ++
                [int64 ((b.stored account).balance - credit.value.amountOrZero)]⟩) := by
  rw [withdrawFullUnblinded_form]
  cases hcredit : fullCredit issuer roundFunc d (b.balance account) with
  | error e => exact .inl ⟨e, rfl⟩
  | ok credit =>
    unfold fullCredit at hcredit
    split_ifs at hcredit with hzero hmax
    exact .inr ⟨credit, not_le.1 hzero, not_lt.1 hmax, rfl⟩

theorem Conserved.withdrawFullUnblinded (h : Conserved b dep out) (issuer : Issuer)
    (roundFunc : Int → Except Err Value) (d : Draw) (account : Bytes) :
    let r := b.withdrawFullUnblinded issuer roundFunc d account
    (∃ e, r = (.error e, b)) ∨ ∃ credit, r.1 = .ok credit ∧
      Conserved r.2 dep (out + credit.value.amountOrZero) := by
  rcases withdrawFullUnblinded_cases issuer roundFunc d b account with he | ⟨credit, -, hle, hr⟩
  · exact .inl he
  · have h0 := h.stored_nonneg account
    have hle' := h.stored_le account
    have hsmall := h.small
    have hv := credit.value.amountOrZero_bounds
    have hmax : maxAmount ≤ maxInt64 := by decide
    refine .inr ⟨credit, congrArg Prod.fst hr, ?_⟩
    have hneg : int64 (-1 * credit.value.amountOrZero) = -credit.value.amountOrZero := by
      rw [int64_eq_of_range (by omega) (by omega)]
      omega
    rw [hr, hneg, int64_eq_of_range (by omega) (by omega)]
    exact h.move account (c := (b.stored account).balance - credit.value.amountOrZero)
      (by simp) (Int.le_refl 0) (by omega) (by omega) (by omega)

/-! ## The total balance -/

theorem foldl_int64 {l : List (Σ _ : Bytes, StoredAccount)} {sum : Int} (h0 : 0 ≤ sum)
    (hl : ∀ e ∈ l, 0 ≤ e.2.balance) (hfit : sum + (l.map fun e => e.2.balance).sum ≤ maxInt64) :
    l.foldl (fun sum acc => int64 (sum + acc.2.balance)) sum =
      sum + (l.map fun e => e.2.balance).sum := by
  induction l generalizing sum with
  | nil => simp
  | cons e l ih =>
    have he := hl e (by simp)
    have hrest : 0 ≤ (l.map fun e => e.2.balance).sum :=
      List.sum_nonneg (by simpa using fun x k acc hmem hx => hx ▸ hl ⟨k, acc⟩ (by simp [hmem]))
    rw [List.map_cons, List.sum_cons] at hfit ⊢
    rw [List.foldl_cons, int64_eq (by omega) (by omega),
      ih (by omega) (fun e he => hl e (by simp [he])) (by omega)]
    omega

theorem Conserved.totalBalance (h : Conserved b dep out) : b.totalBalance = b.balances := by
  have hfold := foldl_int64 (l := b.accounts.entries) (Int.le_refl 0)
    (fun e he => h.nonneg e.1 e.2 (AList.mem_lookup_iff.2 he))
    (by rw [Int.zero_add]; exact h.small)
  unfold Ledger.totalBalance
  rw [hfold]
  exact Int.zero_add _

end

/-! ## Runs -/

section
variable {L : Type}

def deposited (h : List BankEvent) : Int := (h.map (·.deposited)).sum

def reported (h : List BankEvent) : Int := (h.map (·.reported)).sum

def handedOut (h : List BankEvent) : Int := (h.map (·.handedOut)).sum

theorem exchange_quiet (nl : NonceLocker L) (issuer : Issuer) (credit : AnyCredit)
    (req : BlindSignRequest) (w : World L) :
    Quiet w (exec nl (exchange issuer credit req) w).2 := by
  unfold exchange
  cases req.value.amount with
  | error e => exact .refl w
  | ok amount =>
    dsimp only
    split
    · exact .refl w
    · rw [exec_exchangerExchange]
      split
      · exact .refl w
      · split
        · exact .refl w
        · dsimp only
          split
          · exact quiet_after w _ rfl
          · split
            · exact quiet_after w _ rfl
            · split <;> exact quiet_after w _ rfl

theorem Conserved.exec {r : BankRun L} {dep out : Int} (h : Conserved r.bank.ledger dep out)
    (issuer : Issuer) (nl : NonceLocker L) (op : BankOp) (hrange : r.InRange op) :
    let x := op.exec issuer nl r.bank
    let e : BankEvent := ⟨op, x.1, x.2.1⟩
    Conserved x.2.2.ledger (dep + e.deposited) (out + e.handedOut) := by
  cases op with
  | deposit account credit cancel =>
    simp only [BankOp.exec, BankEvent.deposited, BankEvent.handedOut, Int.add_zero]
    rcases deposit_cases nl issuer account credit ⟨r.bank.locker, r.bank.ledger, [], cancel⟩ with
      ⟨-, hquiet, -⟩ | ⟨amount, hspends, hledger, hupd, -⟩
    · rw [hquiet.1, hquiet.2]
      simpa [balanceUpdates] using h
    · have hledger := congrArg Prod.snd hledger
      simp only at hledger
      rw [hledger, hupd]
      have hfit : r.bank.ledger.balances + amount ≤ maxInt64 := by
        rw [← Value.amountOrZero_eq hspends.1]
        exact hrange
      simpa [balanceUpdates] using h.updateBalance account hspends.1 hspends.2.1 hfit
  | withdrawBatch account reqs =>
    simp only [BankOp.exec, BankEvent.deposited, balanceUpdates, List.filterMap_nil, List.sum_nil,
      Int.add_zero]
    rcases h.withdrawBatch issuer account reqs with ⟨e, he⟩ | ⟨⟨a, ha⟩, hc⟩
    · simpa [he, BankEvent.handedOut] using h
    · simpa [ha, BankEvent.handedOut] using hc
  | withdrawFullUnblinded account roundFunc d =>
    simp only [BankOp.exec, BankEvent.deposited, balanceUpdates, List.filterMap_nil, List.sum_nil,
      Int.add_zero]
    rcases h.withdrawFullUnblinded issuer roundFunc d account with ⟨e, he⟩ | ⟨credit, hcredit, hc⟩
    · simpa [he, BankEvent.handedOut] using h
    · simpa [hcredit, BankEvent.handedOut] using hc
  | exchange credit request cancel =>
    simp only [BankOp.exec, BankEvent.deposited, BankEvent.handedOut, Int.add_zero]
    have hquiet := exchange_quiet nl issuer credit request
      ⟨r.bank.locker, r.bank.ledger, [], cancel⟩
    rw [hquiet.1, hquiet.2]
    simpa [balanceUpdates] using h
  | balance account =>
    simpa [BankOp.exec, BankEvent.deposited, BankEvent.handedOut, balanceUpdates] using h

/-- The books of a run are conserved. -/
def BankRun.Balanced (r : BankRun L) : Prop :=
  Conserved r.bank.ledger (deposited r.history) (handedOut r.history)

variable (issuer : Issuer) (nl : NonceLocker L)

theorem BankRun.Balanced.step {r : BankRun L} (h : r.Balanced) {op : BankOp} (hop : r.InRange op) :
    (r.step issuer nl op).Balanced := by
  have hexec := h.exec issuer nl op hop
  simpa [BankRun.Balanced, BankRun.step, deposited, handedOut] using hexec

theorem BankRun.Balanced.run {r : BankRun L} {ops : List BankOp} (h : r.Balanced)
    (hfits : r.Fits issuer nl ops) : (r.run issuer nl ops).Balanced := by
  induction ops generalizing r with
  | nil => exact h
  | cons op ops ih => exact ih (h.step issuer nl hfits.1) hfits.2

/-- Without a cancellation, what is deposited is what the deposits report. -/
theorem exec_reported (b : Bank L) (op : BankOp) (hop : op.uncancelled) :
    let x := op.exec issuer nl b
    let e : BankEvent := ⟨op, x.1, x.2.1⟩
    e.reported = e.deposited := by
  cases op with
  | deposit account credit cancel =>
    cases (show cancel = none from hop)
    simp only [BankOp.exec, BankEvent.deposited, BankEvent.reported]
    rcases deposit_cases nl issuer account credit ⟨b.locker, b.ledger, [], none⟩ with
      ⟨herr, hquiet, -⟩ | ⟨amount, hspends, -, hupd, herr⟩
    · obtain ⟨e, he⟩ := Option.ne_none_iff_exists'.1 herr
      rw [he, hquiet.2]
      rfl
    · rw [herr, hupd]
      exact (Value.amountOrZero_eq hspends.1).trans (Int.add_zero amount).symm
  | exchange credit request cancel =>
    simp only [BankOp.exec, BankEvent.deposited, BankEvent.reported]
    rw [(exchange_quiet nl issuer credit request ⟨b.locker, b.ledger, [], cancel⟩).2]
    rfl
  | _ => rfl

theorem run_reported {r : BankRun L} {ops : List BankOp}
    (h : reported r.history = deposited r.history) (hops : ∀ op ∈ ops, op.uncancelled) :
    reported (r.run issuer nl ops).history = deposited (r.run issuer nl ops).history := by
  induction ops generalizing r with
  | nil => exact h
  | cons op ops ih =>
    refine ih ?_ fun op' hop' => hops op' (by simp [hop'])
    have hstep := exec_reported issuer nl r.bank op (hops op (by simp))
    simp only [reported, deposited] at h
    simp [BankRun.step, reported, deposited, h, hstep]

/-- **Ledger conservation.** After every run of a bank with any locker, in which the balances stay
inside `int64`: no stored balance is negative, the total balance is the sum of all histories less
the rounding corrections, and the credits handed out are worth what was deposited less the total
balance and the rounding corrections. If no caller cancels, what was deposited is what the
deposits reported. -/
theorem bank_conserves (l : L) (ops : List BankOp) (hfits : (BankRun.new l).Fits issuer nl ops) :
    let r := (BankRun.new l).run issuer nl ops
    let b := r.bank.ledger
    (∀ k acc, b.accounts.lookup k = some acc → 0 ≤ acc.balance) ∧
      b.totalBalance = b.accounts.total (·.mutations.sum) - b.roundingMutations.sum ∧
      handedOut r.history = deposited r.history - b.totalBalance - b.roundingMutations.sum ∧
      ((∀ op ∈ ops, op.uncancelled) → reported r.history = deposited r.history) := by
  have hnew : (BankRun.new l).Balanced := Conserved.new
  have h := hnew.run issuer nl hfits
  refine ⟨h.nonneg, ?_, ?_, run_reported issuer nl rfl⟩
  · rw [h.totalBalance]
    exact h.histories
  · rw [h.totalBalance]
    exact h.handed

end

/-- Deposit 5 and 3 units, withdraw 2 from the first account and round the other up to 4. -/
theorem bank_conserves_rounded :
    let five : BlindedCredit := ⟨⟨false, 5, by decide⟩, ⟨0, List.replicate 16 7, false⟩, []⟩
    let three : BlindedCredit := ⟨⟨false, 3, by decide⟩, ⟨0, List.replicate 16 8, false⟩, []⟩
    let ops : List BankOp :=
      [.deposit [1] five none, .deposit [2] three none,
        .withdrawBatch [1] [⟨⟨false, 2, by decide⟩, [9]⟩],
        .withdrawFullUnblinded [2] (fun _ => .ok ⟨false, 4, by decide⟩)
          ⟨.ok ([], []), .ok ⟨0, List.replicate 16 9, false⟩⟩]
    let r := (BankRun.new .new).run ⟨.accepting⟩
      (InMem.nonceLocker 0 (.ok (Vector.replicate 8 1))) ops
    r.bank.ledger.totalBalance = 3 ∧ r.bank.ledger.roundingMutations = [-1] ∧
      handedOut r.history = deposited r.history - r.bank.ledger.totalBalance -
        r.bank.ledger.roundingMutations.sum := by
  intro five three ops r
  refine ⟨by decide, by decide, ?_⟩
  exact (bank_conserves ⟨.accepting⟩ (InMem.nonceLocker 0 (.ok (Vector.replicate 8 1))) .new ops
    (by decide)).2.2.1

end Anonpay
