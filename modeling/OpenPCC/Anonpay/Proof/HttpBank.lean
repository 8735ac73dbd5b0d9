import OpenPCC.Anonpay.HttpBank

/-!
# Which calls an HTTP bank answers like the bank it serves

`BankCall.served` is the call that the server makes for a call of the client. The client then
returns what the bank returns for that call, if the response carries it (`sameAnswer_served_iff`),
or an input error without a call of the bank (`call_rejected`). The two calls are the same exactly
if the request carries all arguments (`BankCall.sent_iff`). A bank that accepts one call only tells
them apart otherwise (`probe`).
-/

namespace Anonpay

open Go

variable {B : Type}

/-! ## Round trips -/

theorem parse_blindBytes_fin : ∀ (shift : Bool) (n : Fin 512),
    parseCurrencyFromBlindBytes (Value.blindBytes ⟨shift, n, n.2⟩) =
      .ok (Value.received ⟨shift, n, n.2⟩) := by
  decide +kernel

theorem parse_blindBytes (v : Value) :
    parseCurrencyFromBlindBytes v.blindBytes = .ok v.received :=
  parse_blindBytes_fin v.shift ⟨v.value, v.top⟩

theorem Value.unmarshalProto_marshalProto (v : Value) :
    Value.unmarshalProto (some v.marshalProto) = .ok v.received :=
  parse_blindBytes v

theorem Value.received_eq_iff (v : Value) : v.received = v ↔ v.Sent := by
  obtain ⟨shift, value, top⟩ := v
  cases shift <;> simp [received, Sent]

def Nonce.received (n : Nonce) : Nonce := { n with unsafeIncrement := false }

theorem Nonce.received_eq_iff (n : Nonce) : n.received = n ↔ n.unsafeIncrement = false := by
  obtain ⟨timestamp, nonce, unsafeIncrement⟩ := n
  simp [received, eq_comm]

theorem unmarshalCredit_marshalCredit (value : Value) (nonce : Nonce) (signature : Bytes) :
    (nonce.nonce.length = nonceLen ∧ signature ≠ [] ∧
        unmarshalCredit (some (marshalCredit value nonce signature)) =
          .ok (value.received, nonce.received, signature)) ∨
      ¬(nonce.nonce.length = nonceLen ∧ signature ≠ []) ∧
        ∃ e, unmarshalCredit (some (marshalCredit value nonce signature)) = .error e := by
  cases signature with
  | nil => exact .inr ⟨by simp, _, rfl⟩
  | cons x xs =>
    by_cases hlen : nonce.nonce.length = nonceLen
    · refine .inl ⟨hlen, List.cons_ne_nil x xs, ?_⟩
      simp [unmarshalCredit, marshalCredit, Value.unmarshalProto_marshalProto,
        Nonce.unmarshalProto, Nonce.marshalProto, hlen, Nonce.received]
    · refine .inr ⟨by simp [hlen], ?_⟩
      simp [unmarshalCredit, marshalCredit, Value.unmarshalProto_marshalProto,
        Nonce.unmarshalProto, Nonce.marshalProto, hlen]

theorem unmarshalProto_marshalCredit {value : Value} {nonce : Nonce} {signature : Bytes}
    (h : nonce.nonce.length = nonceLen ∧ signature ≠ []) :
    BlindedCredit.unmarshalProto (some (marshalCredit value nonce signature)) =
      .ok ⟨value.received, nonce.received, signature⟩ := by
  obtain ⟨-, -, hcredit⟩ | ⟨hnot, -⟩ := unmarshalCredit_marshalCredit value nonce signature
  · rw [BlindedCredit.unmarshalProto, hcredit]
    rfl
  · exact absurd h hnot

theorem unmarshalRequests_map (reqs : List BlindSignRequest) :
    HttpApi.unmarshalRequests
        (reqs.map fun req => ⟨some req.value.marshalProto, req.blindedMessage⟩) =
      .ok (reqs.map (·.received)) := by
  induction reqs with
  | nil => rfl
  | cons req reqs ih =>
    simp [HttpApi.unmarshalRequests, Value.unmarshalProto_marshalProto, BlindSignRequest.received,
      ih]

/-! ## The calls of the server -/

/-- The call that the server makes, unless it rejects the request. -/
def BankCall.served : BankCall → Option BankCall
  | .withdrawBatch _ account reqs =>
    if account.length = accountTokenLength then
      some (.withdrawBatch [] account (reqs.map (·.received)))
    else none
  | .withdrawFullUnblinded _ account =>
    if account.length = accountTokenLength then some (.withdrawFullUnblinded [] account) else none
  | .deposit _ account credit =>
    if account.length = accountTokenLength ∧ credit.nonce.nonce.length = nonceLen ∧
        credit.signature ≠ [] then
      some (.deposit [] account ⟨credit.value.received, credit.nonce.received, credit.signature⟩)
    else none
  | .exchange _ credit request =>
    if credit.nonce.nonce.length = nonceLen ∧ credit.signature ≠ [] then
      some (.exchange []
        (.blinded ⟨credit.value.received, credit.nonce.received, credit.signature⟩)
        ⟨credit.value.received, request.blindedMessage⟩)
    else none
  | .balance account =>
    if account.length = accountTokenLength then some (.balance account) else none

theorem BlindSignRequest.received_eq_iff (req : BlindSignRequest) :
    req.received = req ↔ req.value.Sent := by
  obtain ⟨value, blindedMessage⟩ := req
  simp [received, Value.received_eq_iff]

theorem map_received_eq_iff (reqs : List BlindSignRequest) :
    reqs.map (·.received) = reqs ↔ ∀ req ∈ reqs, req.value.Sent := by
  induction reqs with
  | nil => simp
  | cons req reqs ih =>
    rw [List.map_cons, List.cons.injEq, ih, BlindSignRequest.received_eq_iff,
      List.forall_mem_cons]

theorem sentCredit_iff {value : Value} {nonce : Nonce} {signature : Bytes} :
    SentCredit value nonce signature ↔
      (nonce.nonce.length = nonceLen ∧ signature ≠ []) ∧ value.received = value ∧
        nonce.received = nonce := by
  rw [SentCredit, Value.received_eq_iff, Nonce.received_eq_iff]
  tauto

theorem BankCall.sent_iff (c : BankCall) : c.Sent ↔ c.served = some c := by
  cases c with
  | withdrawBatch transferID account reqs =>
    simp only [Sent, served, Option.ite_none_right_eq_some, Option.some.injEq,
      withdrawBatch.injEq, true_and, map_received_eq_iff]
    tauto
  | withdrawFullUnblinded transferID account =>
    simp only [Sent, served, Option.ite_none_right_eq_some, Option.some.injEq,
      withdrawFullUnblinded.injEq, and_true]
    tauto
  | deposit transferID account credit =>
    obtain ⟨value, nonce, signature⟩ := credit
    simp only [Sent, served, Option.ite_none_right_eq_some, Option.some.injEq, deposit.injEq,
      BlindedCredit.mk.injEq, true_and, and_true, sentCredit_iff]
    tauto
  | exchange transferID credit request =>
    constructor
    · rintro ⟨rfl, ⟨⟨value, nonce, signature⟩, rfl⟩, hcredit, hvalue⟩
      obtain ⟨hok, hreceived, hnonce⟩ := sentCredit_iff.1 hcredit
      obtain ⟨requested, blindedMessage⟩ := request
      obtain rfl : requested = value := hvalue
      rw [served, if_pos hok, hreceived, hnonce]
      rfl
    · intro h
      rw [served, Option.ite_none_right_eq_some] at h
      obtain ⟨hok, h⟩ := h
      cases credit with
      | unblinded credit => cases h
      | blinded credit =>
        obtain ⟨value, nonce, signature⟩ := credit
        obtain ⟨requested, blindedMessage⟩ := request
        simp only [Option.some.injEq, exchange.injEq, AnyCredit.blinded.injEq,
          BlindedCredit.mk.injEq, BlindSignRequest.mk.injEq] at h
        obtain ⟨rfl, ⟨hreceived, hnonce, -⟩, hvalue, -⟩ := h
        exact ⟨rfl, ⟨_, rfl⟩, sentCredit_iff.2 ⟨hok, hreceived, hnonce⟩,
          hvalue.symm.trans hreceived⟩
  | balance account =>
    simp [Sent, served]

/-! ## The answers of the client -/

theorem isInputError_doRequest {α : Type} (endpoint : String) (err : Err) :
    ∃ e, HttpApi.doRequest endpoint (HttpApi.writeErrorResponse err : HttpApi.Reply α) = .error e ∧
      isInputError e = isInputError err := by
  unfold HttpApi.writeErrorResponse
  split
  next h => exact ⟨_, rfl, h.symm⟩
  next h =>
    rw [Bool.not_eq_true] at h
    exact ⟨_, rfl, h.symm⟩

theorem requireAccount_of_length {α : Type} {account : Bytes}
    (h : account.length = accountTokenLength) (next : Bytes → B → HttpApi.Reply α × B) (b : B) :
    HttpApi.requireAccount (some account) next b = next account b := by
  simp [HttpApi.requireAccount, accountTokenFromSecretBytes, h]

theorem requireAccount_of_length_ne {α : Type} {account : Bytes}
    (h : account.length ≠ accountTokenLength) (next : Bytes → B → HttpApi.Reply α × B) (b : B) :
    HttpApi.requireAccount (some account) next b = (.badRequest "invalid account", b) := by
  simp [HttpApi.requireAccount, accountTokenFromSecretBytes, h]

theorem call_rejected (bank : BlindBankContract B) {c : BankCall} (h : c.served = none) (b : B) :
    ∃ e, (HttpApi.bank bank).call c b = (.error e, b) ∧ isInputError e = true := by
  cases c with
  | withdrawBatch transferID account reqs =>
    have hlen : account.length ≠ accountTokenLength := by simpa [BankCall.served] using h
    simp only [BlindBankContract.call, HttpApi.bank, HttpApi.withdrawBatchHandler,
      HttpApi.withdrawRequest, requireAccount_of_length_ne hlen]
    exact ⟨_, rfl, rfl⟩
  | withdrawFullUnblinded transferID account =>
    have hlen : account.length ≠ accountTokenLength := by simpa [BankCall.served] using h
    simp only [BlindBankContract.call, HttpApi.bank, HttpApi.withdrawFullUnblindedHandler,
      requireAccount_of_length_ne hlen]
    exact ⟨_, rfl, rfl⟩
  | deposit transferID account credit =>
    by_cases hlen : account.length = accountTokenLength
    · have hcredit : ¬(credit.nonce.nonce.length = nonceLen ∧ credit.signature ≠ []) := by
        simpa [BankCall.served, hlen] using h
      obtain ⟨hok, hsig, -⟩ | ⟨-, e, he⟩ :=
        unmarshalCredit_marshalCredit credit.value credit.nonce credit.signature
      · exact absurd ⟨hok, hsig⟩ hcredit
      · simp only [BlindBankContract.call, HttpApi.bank, HttpApi.depositHandler,
          accountTokenFromSecretBytes, hlen, Option.getD_some, ne_eq, not_true_eq_false, if_false,
          BlindedCredit.unmarshalProto, BlindedCredit.marshalProto, he, Except.map]
        exact ⟨_, rfl, rfl⟩
    · simp only [BlindBankContract.call, HttpApi.bank, HttpApi.depositHandler,
        accountTokenFromSecretBytes, hlen, Option.getD_some, ne_eq, not_false_eq_true, if_true]
      exact ⟨_, rfl, rfl⟩
  | exchange transferID credit request =>
    have hcredit : ¬(credit.nonce.nonce.length = nonceLen ∧ credit.signature ≠ []) := by
      simpa [BankCall.served] using h
    obtain ⟨hok, hsig, -⟩ | ⟨-, e, he⟩ :=
      unmarshalCredit_marshalCredit credit.value credit.nonce credit.signature
    · exact absurd ⟨hok, hsig⟩ hcredit
    · simp only [BlindBankContract.call, HttpApi.bank, HttpApi.exchangeHandler,
        BlindedCredit.unmarshalProto, AnyCredit.marshalProto, he, Except.map]
      exact ⟨_, rfl, rfl⟩
  | balance account =>
    have hlen : account.length ≠ accountTokenLength := by simpa [BankCall.served] using h
    simp only [BlindBankContract.call, HttpApi.bank, HttpApi.balanceHandler,
      requireAccount_of_length_ne hlen]
    exact ⟨_, rfl, rfl⟩

theorem sameAnswer_error {α β : Type} {c : BankCall} {make : α → BankResult}
    {make' : β → BankResult} {r : Except Err α} {e : Err} (b : B)
    (h : ∃ e', r = .error e' ∧ isInputError e' = isInputError e) :
    SameAnswer (r.map make, b) ((Except.error e : Except Err β).map make', b) ↔
      ∀ result, (Except.error e : Except Err β).map make' = .ok result → result.Sent c := by
  obtain ⟨e', rfl, hkind⟩ := h
  exact iff_of_true ⟨fun result => by simp [Except.map], hkind, rfl⟩ nofun

theorem sameAnswer_ok {α : Type} {c : BankCall} {make : α → BankResult} {r : Except Err α} {x : α}
    (b : B) (hmake : ∀ y, make y = make x → y = x) (h : r = .ok x ↔ (make x).Sent c) :
    SameAnswer (r.map make, b) ((Except.ok x : Except Err α).map make, b) ↔
      ∀ result, (Except.ok x : Except Err α).map make = .ok result → result.Sent c := by
  have hsent : (∀ result, (Except.ok x : Except Err α).map make = .ok result → result.Sent c) ↔
      (make x).Sent c := by
    simp [Except.map]
  rw [hsent, ← h]
  constructor
  · rintro ⟨hsame, -⟩
    obtain ⟨y, rfl, hy⟩ : ∃ y, r = .ok y ∧ make y = make x := by
      have hok := (hsame (make x)).2 rfl
      cases r with
      | error e => cases hok
      | ok y => exact ⟨y, rfl, by simpa [Except.map] using hok⟩
    rw [hmake y hy]
  · rintro rfl
    exact ⟨fun _ => Iff.rfl, rfl, rfl⟩

section

variable (err : Err)

theorem withdrawResult_error (reqs : List BlindSignRequest) :
    ∃ e, HttpApi.withdrawResult reqs (HttpApi.writeErrorResponse err) = .error e ∧
      isInputError e = isInputError err := by
  obtain ⟨e, he, hkind⟩ := isInputError_doRequest (α := Pb.BatchWithdrawResponse) "/withdraw" err
  exact ⟨.errorf "failed to withdraw batch: %w" [] e, by rw [HttpApi.withdrawResult, he], hkind⟩

theorem withdrawFullResult_error :
    ∃ e, HttpApi.withdrawFullResult (HttpApi.writeErrorResponse err) = .error e ∧
      isInputError e = isInputError err := by
  obtain ⟨e, he, hkind⟩ :=
    isInputError_doRequest (α := Pb.WithdrawFullUnblindedResponse) "/withdraw-full" err
  exact ⟨.errorf "failed to withdraw all: %w" [] e, by rw [HttpApi.withdrawFullResult, he], hkind⟩

theorem fieldOf_error {α β : Type} (endpoint format : String) (get : α → β) :
    ∃ e, HttpApi.fieldOf endpoint format get (HttpApi.writeErrorResponse err) = .error e ∧
      isInputError e = isInputError err := by
  obtain ⟨e, he, hkind⟩ := isInputError_doRequest (α := α) endpoint err
  exact ⟨.errorf format [] e, by rw [HttpApi.fieldOf, he], hkind⟩

end

theorem withdrawFullResult_ok (credit : UnblindedCredit) :
    HttpApi.withdrawFullResult (.ok ⟨some credit.marshalProto⟩) = .ok credit ↔
      SentCredit credit.value credit.nonce credit.signature := by
  obtain ⟨value, nonce, signature⟩ := credit
  rw [sentCredit_iff]
  obtain ⟨hlen, hsig, h⟩ | ⟨hnot, e, h⟩ := unmarshalCredit_marshalCredit value nonce signature
  · simp [HttpApi.withdrawFullResult, HttpApi.doRequest, UnblindedCredit.unmarshalProto,
      UnblindedCredit.marshalProto, h, hlen, hsig, Except.map]
  · simp [HttpApi.withdrawFullResult, HttpApi.doRequest, UnblindedCredit.unmarshalProto,
      UnblindedCredit.marshalProto, h, hnot, Except.map]

theorem sameAnswer_served_iff (bank : BlindBankContract B) {c c' : BankCall}
    (h : c.served = some c') (b : B) :
    SameAnswer ((HttpApi.bank bank).call c b) (bank.call c' b) ↔
      ∀ result, (bank.call c' b).1 = .ok result → result.Sent c := by
  cases c with
  | withdrawBatch transferID account reqs =>
    simp only [BankCall.served, Option.ite_none_right_eq_some, Option.some.injEq] at h
    obtain ⟨hlen, rfl⟩ := h
    obtain ⟨⟨e | ⟨balance, signatures⟩, b'⟩, hanswer⟩ :
      ∃ answer, bank.withdrawBatch [] account (reqs.map (·.received)) b = answer := ⟨_, rfl⟩
    all_goals simp only [BlindBankContract.call, HttpApi.bank, HttpApi.withdrawBatchHandler,
      HttpApi.withdrawRequest, requireAccount_of_length hlen, unmarshalRequests_map, hanswer]
    · exact sameAnswer_error b' (withdrawResult_error e reqs)
    · refine sameAnswer_ok b' (by simp) ?_
      simp [HttpApi.withdrawResult, HttpApi.doRequest, BankResult.Sent]
  | withdrawFullUnblinded transferID account =>
    simp only [BankCall.served, Option.ite_none_right_eq_some, Option.some.injEq] at h
    obtain ⟨hlen, rfl⟩ := h
    rcases hanswer : bank.withdrawFullUnblinded [] account b with ⟨e | credit, b'⟩
    all_goals simp only [BlindBankContract.call, HttpApi.bank, HttpApi.withdrawFullUnblindedHandler,
      requireAccount_of_length hlen, hanswer]
    · exact sameAnswer_error b' (withdrawFullResult_error e)
    · exact sameAnswer_ok b' (by simp) (withdrawFullResult_ok credit)
  | deposit transferID account credit =>
    simp only [BankCall.served, Option.ite_none_right_eq_some, Option.some.injEq] at h
    obtain ⟨⟨hlen, hcredit⟩, rfl⟩ := h
    rcases hanswer : bank.deposit [] account
      ⟨credit.value.received, credit.nonce.received, credit.signature⟩ b with ⟨e | balance, b'⟩
    all_goals simp only [BlindBankContract.call, HttpApi.bank, HttpApi.depositHandler,
      accountTokenFromSecretBytes, hlen, Option.getD_some, ne_eq, not_true_eq_false, if_false,
      BlindedCredit.marshalProto, unmarshalProto_marshalCredit hcredit, hanswer]
    · exact sameAnswer_error b' (fieldOf_error e _ _ _)
    · exact sameAnswer_ok b' (by simp) (iff_of_true rfl trivial)
  | exchange transferID credit request =>
    simp only [BankCall.served, Option.ite_none_right_eq_some, Option.some.injEq] at h
    obtain ⟨hcredit, rfl⟩ := h
    rcases hanswer : bank.exchange []
      (.blinded ⟨credit.value.received, credit.nonce.received, credit.signature⟩)
      ⟨credit.value.received, request.blindedMessage⟩ b with ⟨e | signature, b'⟩
    all_goals simp only [BlindBankContract.call, HttpApi.bank, HttpApi.exchangeHandler,
      AnyCredit.marshalProto, unmarshalProto_marshalCredit hcredit, hanswer]
    · exact sameAnswer_error b' (fieldOf_error e _ _ _)
    · exact sameAnswer_ok b' (by simp) (iff_of_true rfl trivial)
  | balance account =>
    simp only [BankCall.served, Option.ite_none_right_eq_some, Option.some.injEq] at h
    obtain ⟨hlen, rfl⟩ := h
    rcases hanswer : bank.balance account b with ⟨e | balance, b'⟩
    all_goals simp only [BlindBankContract.call, HttpApi.bank, HttpApi.balanceHandler,
      requireAccount_of_length hlen, hanswer]
    · exact sameAnswer_error b' (fieldOf_error e _ _ _)
    · exact sameAnswer_ok b' (by simp) (iff_of_true rfl trivial)

/-! ## A bank that tells calls apart -/

/-- A result that every response carries. -/
def BankCall.result : BankCall → BankResult
  | .withdrawBatch _ _ reqs => .signatures 0 (reqs.map fun _ => [])
  | .withdrawFullUnblinded _ _ => .credit ⟨.ofNat 4, ⟨0, .replicate 16 9, false⟩, [1]⟩
  | .deposit _ _ _ | .balance _ => .balance 0
  | .exchange _ _ _ => .signature []

theorem BankCall.result_sent (c : BankCall) : c.result.Sent c := by
  cases c with
  | withdrawBatch transferID account reqs => simp [result, BankResult.Sent]
  | withdrawFullUnblinded transferID account =>
    exact ⟨nofun, rfl, rfl, List.cons_ne_nil 1 []⟩
  | deposit transferID account credit => trivial
  | exchange transferID credit request => trivial
  | balance account => trivial

/-- The bank that accepts the call `c` only. -/
def probe (c : BankCall) : BlindBankContract Unit where
  withdrawBatch transferID account reqs b :=
    (if c = .withdrawBatch transferID account reqs then .ok (0, reqs.map fun _ => [])
      else .error (.inputError (.new "other call" [])), b)
  withdrawFullUnblinded transferID account b :=
    (if c = .withdrawFullUnblinded transferID account then
        .ok ⟨.ofNat 4, ⟨0, .replicate 16 9, false⟩, [1]⟩
      else .error (.inputError (.new "other call" [])), b)
  deposit transferID account credit b :=
    (if c = .deposit transferID account credit then .ok 0
      else .error (.inputError (.new "other call" [])), b)
  exchange transferID credit request b :=
    (if c = .exchange transferID credit request then .ok []
      else .error (.inputError (.new "other call" [])), b)
  balance account b :=
    (if c = .balance account then .ok 0 else .error (.inputError (.new "other call" [])), b)

theorem probe_call (c c' : BankCall) :
    ((probe c).call c' ()).1 =
      if c = c' then .ok c'.result else .error (.inputError (.new "other call" [])) := by
  cases c' <;> exact apply_ite (Except.map _) _ _ _

/-- The client answers a call like any bank it is used for exactly if the request carries the call,
up to results that the response does not carry. -/
theorem BankCall.sent_iff_sameAnswer (c : BankCall) :
    c.Sent ↔ ∀ (B : Type) (bank : BlindBankContract B) (b : B),
      (SameAnswer ((HttpApi.bank bank).call c b) (bank.call c b) ↔
        ∀ result, (bank.call c b).1 = .ok result → result.Sent c) := by
  rw [sent_iff]
  constructor
  · intro hserved B bank b
    exact sameAnswer_served_iff bank hserved b
  · intro h
    have hself : ((probe c).call c ()).1 = .ok c.result := by rw [probe_call, if_pos rfl]
    have hsame : SameAnswer ((HttpApi.bank (probe c)).call c ()) ((probe c).call c ()) := by
      refine (h Unit (probe c) ()).2 fun result hresult => ?_
      obtain rfl : c.result = result := by simpa [hself] using hresult
      exact c.result_sent
    have hok : ((HttpApi.bank (probe c)).call c ()).1 = .ok c.result := (hsame.1 _).2 hself
    cases hserved : c.served with
    | none =>
      obtain ⟨e, he, -⟩ := call_rejected (probe c) hserved ()
      simp [he] at hok
    | some c' =>
      by_cases hc : c = c'
      · rw [← hc]
      · -- the bank rejects the call of the server, so the client returns an error
        have hother : ((probe c).call c' ()).1 = .error (.inputError (.new "other call" [])) := by
          rw [probe_call, if_neg hc]
        have hanswer := (sameAnswer_served_iff (probe c) hserved ()).2 (by simp [hother])
        have hbank := (hanswer.1 _).1 hok
        simp [hother] at hbank

/-- The in-memory bank rejects to exchange a credit of 4 for one of 8. Over HTTP it signs, since the
value of the request is not sent. -/
theorem exchange_value_not_sent :
    let issuer : Issuer := ⟨.accepting⟩
    let bank := InMem.bank issuer (InMem.nonceLocker 0 (.ok (Vector.replicate 8 1)))
      (fun _ => .ok ⟨false, 4, by decide⟩) ⟨.ok ([], []), .ok ⟨0, List.replicate 16 9, false⟩⟩
    let b : Bank InMem.NonceLocker := ⟨.new, .new⟩
    let credit : BlindedCredit := ⟨⟨false, 4, by decide⟩, ⟨0, List.replicate 16 7, false⟩, [1]⟩
    let c := BankCall.exchange [] (.blinded credit) ⟨⟨false, 8, by decide⟩, [2]⟩
    ¬ c.Sent ∧ rejects (bank.call c b).1 = true ∧
      (∃ signature, ((HttpApi.bank bank).call c b).1 = .ok (.signature signature)) ∧
      ¬ SameAnswer ((HttpApi.bank bank).call c b) (bank.call c b) := by
  intro issuer bank b credit c
  have hrejects : rejects (bank.call c b).1 = true := by decide
  have hsigns : ((HttpApi.bank bank).call c b).1 = .ok (.signature []) := by decide
  refine ⟨?_, hrejects, ⟨[], hsigns⟩, ?_⟩
  · rintro ⟨-, -, -, hvalue⟩
    exact absurd hvalue (by decide)
  · rintro ⟨-, hsame, -⟩
    rw [hrejects, hsigns] at hsame
    cases hsame

end Anonpay
