import OpenPCC.Anonpay.WithdrawCall
import OpenPCC.Anonpay.Proof.BlindBank
import OpenPCC.Anonpay.Proof.HttpBank

/-!
# How often a withdrawal over HTTP debits the account

The server grants a request exactly if the account token and the batch are in order
(`Config.Accepts`), which does not change between the attempts, and the balance covers the batch
(`isOk_serve_iff`). So every execution of the call is a debit (`Inv`), and a call that was executed
is executed again by each further request that the balance covers.
-/

namespace Anonpay

open Go Httpretry

variable {L : Type}

/-! ## What the bank grants -/

theorem withdrawBatch_spec (issuer : Issuer) (b : Ledger) (account : Bytes)
    (reqs : List BlindSignRequest) :
    (¬ (Grantable issuer reqs ∧ batchAmount reqs ≤ b.balance account) ∧
        ∃ e, b.withdrawBatch issuer account reqs = (.error e, b)) ∨
      (Grantable issuer reqs ∧ batchAmount reqs ≤ b.balance account) ∧
        ∃ balance signatures b', b.withdrawBatch issuer account reqs =
            (.ok (balance, signatures), b') ∧
          b'.accountHistory account =
            b.accountHistory account ++ [int64 (-1 * batchAmount reqs)] := by
  obtain ⟨hno, e, he⟩ | ⟨hgrant, sum, sigs, hsum, -, hform⟩ :=
    withdrawBatch_form issuer account reqs
  · exact .inl ⟨fun h => hno h.1, e, he b⟩
  · obtain rfl : sum = batchAmount reqs := hsum
    rw [hform b]
    by_cases hlt : b.balance account < batchAmount reqs
    · exact .inl ⟨fun h => absurd h.2 (not_le.2 hlt), _, if_pos hlt⟩
    · refine .inr ⟨⟨hgrant, not_lt.1 hlt⟩, _, _, _, if_neg hlt, ?_⟩
      simp [Ledger.accountHistory, Ledger.stored]

/-! ## What the server grants -/

def HttpApi.Reply.isOk {α : Type} : HttpApi.Reply α → Bool
  | .ok _ => true
  | _ => false

theorem HttpApi.isOk_writeErrorResponse {α : Type} (err : Err) :
    (HttpApi.writeErrorResponse err : HttpApi.Reply α).isOk = false := by
  unfold HttpApi.writeErrorResponse
  split <;> rfl

theorem HttpApi.isOk_of_withdrawReturn {reqs : List BlindSignRequest}
    {result : Except Failure HttpApi.WithdrawReply} {x : Int × List Bytes}
    (h : HttpApi.withdrawReturn reqs result = .ok x) :
    ∃ reply, result = .ok reply ∧ reply.isOk = true := by
  match result with
  | .ok (.ok message) => exact ⟨_, rfl, rfl⟩
  | .ok (.badRequest msg) => cases h
  | .ok .serverError => cases h
  | .error f => cases h

namespace WithdrawCall

variable {cfg : Config L} {b : Bank L} {c c' : WithdrawCall L} {a : WithdrawAct L}

/-- The account token and the batch are in order. -/
def Config.Accepts (cfg : Config L) : Prop :=
  cfg.account.length = accountTokenLength ∧ Grantable cfg.issuer (cfg.reqs.map (·.received))

theorem serve_spec (cfg : Config L) (b : Bank L) :
    let r := cfg.protocol.serve () b
    (¬ (cfg.Accepts ∧ cfg.sum ≤ b.ledger.balance cfg.account) ∧ r.1.isOk = false ∧ r.2 = b) ∨
      (cfg.Accepts ∧ cfg.sum ≤ b.ledger.balance cfg.account) ∧ r.1.isOk = true ∧
        r.2.ledger.accountHistory cfg.account =
          b.ledger.accountHistory cfg.account ++ [int64 (-1 * cfg.sum)] ∧
        InMem.balanceOf r.2 cfg.account =
          int64 (InMem.balanceOf b cfg.account - cfg.sum) := by
  intro r
  have hr : r = HttpApi.withdrawBatchHandler
      (InMem.bank cfg.issuer cfg.nonceLocker cfg.roundFunc cfg.draw)
      (HttpApi.withdrawRequest cfg.account cfg.reqs) b := rfl
  simp only [HttpApi.withdrawBatchHandler, HttpApi.withdrawRequest] at hr
  by_cases hlen : cfg.account.length = accountTokenLength
  · rw [requireAccount_of_length hlen] at hr
    simp only [unmarshalRequests_map] at hr
    obtain ⟨hnot, e, he⟩ | ⟨⟨hgrant, hle⟩, balance, signatures, ledger, hok, hhistory⟩ :=
      withdrawBatch_spec cfg.issuer b.ledger cfg.account (cfg.reqs.map (·.received))
    · have hr' : r = (HttpApi.writeErrorResponse e, b) := by simp [hr, InMem.bank, he]
      rw [hr']
      exact .inl ⟨fun h => hnot ⟨h.1.2, h.2⟩, HttpApi.isOk_writeErrorResponse e, rfl⟩
    · have hbank : (InMem.bank cfg.issuer cfg.nonceLocker cfg.roundFunc cfg.draw).withdrawBatch []
          cfg.account (cfg.reqs.map (·.received)) b =
            (.ok (balance, signatures), { b with ledger }) := by
        simp [InMem.bank, hok]
      have hr' : r = (.ok ⟨balance, signatures⟩, { b with ledger }) := by simp [hr, hbank]
      obtain ⟨hbalance, hupdate⟩ := InMem.lawful_withdrawBatch _ _ _ _ hbank
      rw [hr']
      refine .inr ⟨⟨⟨hlen, hgrant⟩, hle⟩, rfl, hhistory, ?_⟩
      rw [hupdate, Function.update_self, hbalance]
      rfl
  · rw [requireAccount_of_length_ne hlen] at hr
    rw [hr]
    exact .inl ⟨fun h => hlen h.1.1, rfl, rfl⟩

theorem isOk_serve_iff (cfg : Config L) (b : Bank L) :
    (cfg.protocol.serve () b).1.isOk = true ↔
      cfg.Accepts ∧ cfg.sum ≤ b.ledger.balance cfg.account := by
  obtain ⟨hnot, hok, -⟩ | ⟨haccepts, hok, -⟩ := serve_spec cfg b
  · simp [hnot, hok]
  · simp [haccepts, hok]

/-! ## Executions are debits -/

structure Inv (cfg : Config L) (b : Bank L) (c : WithdrawCall L) : Prop where
  debited : Debited cfg b (c.executions HttpApi.Reply.isOk) c
  accepts : 0 < c.executions HttpApi.Reply.isOk → cfg.Accepts

theorem Inv.start (cfg : Config L) (b : Bank L) : Inv cfg b (.start b) where
  debited := by
    have hzero : (Rpc.Call.start b : WithdrawCall L).executions HttpApi.Reply.isOk = 0 := rfl
    rw [hzero]
    refine ⟨by simp [Rpc.Call.start], ?_⟩
    simp [Rpc.Call.start, InMem.balanceOf, int64_int64]
  accepts := nofun

theorem Inv.of_eq (h : Inv cfg b c)
    (hserver : c'.server.ledger.stored cfg.account = c.server.ledger.stored cfg.account)
    (hexec : c'.executions HttpApi.Reply.isOk = c.executions HttpApi.Reply.isOk) :
    Inv cfg b c' where
  debited := by
    rw [hexec, Debited, InMem.balanceOf, Ledger.balance, Ledger.accountHistory, hserver]
    exact h.debited
  accepts := by
    rw [hexec]
    exact h.accepts

theorem Inv.moves (h : Inv cfg b c) (hm : c.Moves cfg.protocol a c') (ha : Undisturbed cfg a) :
    Inv cfg b c' := by
  obtain ⟨hexec, hsucc⟩ | ⟨hexec, heq⟩ := hm.executions HttpApi.Reply.isOk
  · cases hm with
    | serve hk =>
      obtain ⟨-, hok, -⟩ | ⟨⟨haccepts, -⟩, -, hhistory, hbalance⟩ := serve_spec cfg c.server
      · rw [Rpc.Call.Executes, hok] at hexec
        cases hexec
      · refine ⟨?_, fun _ => haccepts⟩
        rw [hsucc]
        refine ⟨?_, ?_⟩
        · rw [hhistory, h.debited.1, List.append_assoc, List.replicate_succ']
        · rw [hbalance, h.debited.2, Int.sub_eq_add_neg, int64_int64_add]
          congr 1
          push_cast
          rw [Int.add_mul]
          omega
    | lose | deliver | fail | retry | stop | other => exact hexec.elim
  · cases hm with
    | serve hk =>
      obtain ⟨-, -, hserver⟩ | ⟨-, hok, -⟩ := serve_spec cfg c.server
      · exact h.of_eq (congrArg (·.ledger.stored cfg.account) hserver) heq
      · exact absurd hok hexec
    | lose | deliver | fail | retry | stop => exact h.of_eq rfl heq
    | other => exact h.of_eq (ha c.server) heq

theorem Inv.history_eq_iff (h : Inv cfg b c) :
    c.server.ledger.accountHistory cfg.account = b.ledger.accountHistory cfg.account ↔
      c.executions HttpApi.Reply.isOk = 0 := by
  rw [h.debited.1]
  simp

/-- The account is debited as often as the call is executed. -/
theorem Inv.debitsOnce_iff (h : Inv cfg b c) (hb : c.Backed HttpApi.Reply.isOk) :
    DebitsOnce cfg b c ↔ c.AtMostOnce HttpApi.Reply.isOk := by
  constructor
  · rintro ⟨k, ⟨hhistory, -⟩, hk, -⟩
    have hexec : c.executions HttpApi.Reply.isOk = k := by
      rw [h.debited.1] at hhistory
      have hlen := congrArg List.length hhistory
      simpa using hlen
    rw [Rpc.Call.atMostOnce_iff hb, hexec]
    exact hk
  · rintro ⟨hle, hreturned⟩
    refine ⟨_, h.debited, hle, fun result balance signatures hresult hok => ?_⟩
    obtain ⟨reply, rfl, hreply⟩ := HttpApi.isOk_of_withdrawReturn hok
    exact hreturned reply hresult hreply

/-- A further request is granted if the balance covers it. -/
theorem Inv.redebits_iff (h : Inv cfg b c) (a : WithdrawAct L) :
    ¬ (0 < c.executions HttpApi.Reply.isOk ∧ c.Executes HttpApi.Reply.isOk cfg.protocol a) ↔
      ¬ Redebits cfg b c a := by
  cases a with
  | serve k i =>
    rw [Rpc.Call.Executes, isOk_serve_iff, Redebits, ne_eq, h.history_eq_iff, Nat.pos_iff_ne_zero]
    refine not_congr (and_congr_right fun hne => and_iff_right (h.accepts ?_))
    omega
  | lose | deliver | fail | retry | stop | other => simp [Rpc.Call.Executes, Redebits]

/-- Over every run of one call of `WithdrawBatch`, with any losses, failures and retries, the
account is debited at most once, and once when signatures are returned, exactly if the server never
gets a request of the call when it has debited the account and the balance covers the batch. -/
theorem withdrawBatch_debitsOnce_iff (cfg : Config L) (b : Bank L) (acts : List (WithdrawAct L))
    (he : Trace.Along (Rpc.Call.next cfg.protocol) (Rpc.Call.Enabled cfg.protocol) (.start b) acts)
    (hothers : ∀ a ∈ acts, Undisturbed cfg a) :
    Trace.Always (Rpc.Call.next cfg.protocol) (DebitsOnce cfg b) (.start b) acts ↔
      Trace.Along (Rpc.Call.next cfg.protocol) (fun c a => ¬ Redebits cfg b c a) (.start b)
        acts := by
  have hinv : Trace.Always (Rpc.Call.next cfg.protocol) (Inv cfg b) (.start b) acts :=
    Trace.always_of_step (fun c a h ⟨hea, ha⟩ => h.moves (Rpc.Call.moves_of_enabled hea) ha)
      (Inv.start cfg b) (he.and_forall_mem hothers)
  have hbacked := Rpc.Call.always_backed HttpApi.Reply.isOk he
  rw [(hinv.and hbacked).congr fun c ⟨h, hb⟩ => h.debitsOnce_iff hb,
    Rpc.Call.always_atMostOnce_iff he]
  exact hinv.along_congr fun c a h => h.redebits_iff a

/-- A withdrawal of 2 units from the account `[1, 1, ..]`. -/
def exampleConfig : Config InMem.NonceLocker where
  issuer := ⟨.accepting⟩
  nonceLocker := InMem.nonceLocker 0 (.ok (Vector.replicate 8 1))
  roundFunc _ := .ok (.ofNat 2)
  draw := ⟨.ok ([], []), .ok ⟨0, List.replicate 16 9, false⟩⟩
  account := List.replicate 32 1
  reqs := [⟨.ofNat 2, [2]⟩]

/-- The bank, with 5 units on the account. -/
def exampleServer : Bank InMem.NonceLocker where
  locker := .new
  ledger := ⟨AList.insert (keyForAccount exampleConfig.account) ⟨5, [5]⟩ ∅, []⟩

def timeout : Failure := .doError { err := .new "timeout" [], netErr := true, timeout := true }

/-- The response of the first attempt is lost and the second one is answered: the call returns
signatures, and the account is debited twice. -/
theorem lost_response_debits_twice :
    let acts : List (WithdrawAct InMem.NonceLocker) :=
      [.serve 0 (), .lose 0, .fail timeout, .retry, .serve 0 (), .deliver]
    let c := acts.foldl (Rpc.Call.next exampleConfig.protocol) (.start exampleServer)
    Trace.Along (Rpc.Call.next exampleConfig.protocol) (Rpc.Call.Enabled exampleConfig.protocol)
        (.start exampleServer) acts ∧
      c.caller = .returned (.ok (.ok ⟨1, [[]]⟩)) ∧
      HttpApi.withdrawReturn exampleConfig.reqs (.ok (.ok ⟨1, [[]]⟩)) = .ok (1, [[]]) ∧
      c.server.ledger.accountHistory exampleConfig.account = [5, -2, -2] ∧
      ¬ DebitsOnce exampleConfig exampleServer c := by
  intro acts c
  have hhistory : c.server.ledger.accountHistory exampleConfig.account = [5, -2, -2] := by
    decide +kernel
  refine ⟨by decide +kernel, by decide +kernel, rfl, hhistory, ?_⟩
  rintro ⟨k, ⟨hk, -⟩, hle, -⟩
  have hlen := congrArg List.length (hhistory.symm.trans hk)
  have hserver : (exampleServer.ledger.accountHistory exampleConfig.account).length = 1 := by
    decide +kernel
  simp [hserver] at hlen
  omega

/-- The request of the first attempt is lost, and so is the response of the second one, after which
the balance does not cover the batch. -/
theorem withdrawBatch_debitsOnce_uncovered :
    let cfg : Config InMem.NonceLocker :=
      { exampleConfig with reqs := [⟨.ofNat 3, [2]⟩] }
    let acts : List (WithdrawAct InMem.NonceLocker) :=
      [.lose 0, .fail timeout, .retry, .serve 0 (), .lose 0, .fail timeout, .retry, .serve 0 (),
        .deliver, .stop none]
    Trace.Along (Rpc.Call.next cfg.protocol) (Rpc.Call.Enabled cfg.protocol) (.start exampleServer)
        acts ∧
      (∀ a ∈ acts, Undisturbed cfg a) ∧
      Trace.Always (Rpc.Call.next cfg.protocol) (DebitsOnce cfg exampleServer)
        (.start exampleServer) acts := by
  intro cfg acts
  have he : Trace.Along (Rpc.Call.next cfg.protocol) (Rpc.Call.Enabled cfg.protocol)
      (.start exampleServer) acts := by
    decide +kernel
  have hcovered : Trace.Along (Rpc.Call.next cfg.protocol)
      (fun c a => ¬ Redebits cfg exampleServer c a) (.start exampleServer) acts := by
    decide +kernel
  have hothers : ∀ a ∈ acts, Undisturbed cfg a := by simp [acts, Undisturbed]
  exact ⟨he, hothers, (withdrawBatch_debitsOnce_iff cfg exampleServer acts he hothers).2 hcovered⟩

end WithdrawCall

end Anonpay
