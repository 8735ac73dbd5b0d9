import OpenPCC.Auth.Client

/-!
# The badges that the auth client hands out

* `Client.Inv`: a cached badge was received and verified, and while none is cached no response
  has brought one.
* `Client.vouched_step_iff`, `Client.Inv.step`: a call keeps this exactly if no badge that cannot
  be decoded arrives while none is cached. `cacheBadge` caches the empty badge in that case.
* `Client.getBadge_cases`: `getBadge` returns the cached badge, and never misses it.
-/

namespace Auth

open Go Anonpay Wallet

/-! ## What a response brings -/

theorem unmarshalProto_ok {b : Badge} {badge : Pb.Badge} {creds : Credentials}
    (h : (Credentials.unmarshalProto badge.credentials).result = .ok creds) :
    b.unmarshalProto (some badge) = (⟨creds, badge.signature⟩, none) := by
  rw [Badge.unmarshalProto, Option.bind_some, h]
  rfl

theorem unmarshalProto_error {b : Badge} {badge : Pb.Badge} {err : Err}
    (h : (Credentials.unmarshalProto badge.credentials).result = .error err) :
    b.unmarshalProto (some badge) = (b, some err) := by
  rw [Badge.unmarshalProto, Option.bind_some, h]

/-- A badge that is missing is decoded as the empty one. -/
theorem unmarshalProto_none : emptyBadge.unmarshalProto none = (emptyBadge, none) := rfl

theorem verifyBadge_emptyBadge : verifyBadge emptyBadge = none := rfl

variable {resp : Pb.AuthWithdrawalResponse} {c : Client} {credit : BlindedCredit}

theorem not_vouches_of_not_readable (h : ¬ resp.Readable) (b : Badge) : ¬ resp.Vouches b := by
  rintro ⟨badge, hbadge, hdecode, -⟩
  refine h ⟨badge, hbadge, ?_⟩
  cases hcreds : (Credentials.unmarshalProto badge.credentials).result with
  | ok creds => exact ⟨creds, rfl⟩
  | error err =>
    rw [unmarshalProto_error hcreds] at hdecode
    cases hdecode

namespace Client

/-! ## The cache -/

theorem cacheBadge_of_some {b : Badge} (h : c.badge = some b) (badge : Option Pb.Badge) :
    c.cacheBadge credit badge = (.ok credit, c) := by
  rw [cacheBadge, h]

theorem cacheBadge_of_readable (credit : BlindedCredit) (hnone : c.badge = none)
    (h : resp.Readable) :
    (∃ b, resp.Vouches b ∧
        c.cacheBadge credit resp.badge = (.ok credit, { c with badge := some b })) ∨
      (∀ b, ¬ resp.Vouches b) ∧
        ∃ err, c.cacheBadge credit resp.badge = (.err err, { c with badge := none }) := by
  obtain ⟨badge, hbadge, creds, hcreds⟩ := h
  have hdecode : emptyBadge.unmarshalProto (some badge) = (⟨creds, badge.signature⟩, none) :=
    unmarshalProto_ok hcreds
  cases hverify : verifyBadge ⟨creds, badge.signature⟩ with
  | none =>
    refine .inl ⟨_, ⟨badge, hbadge, hdecode, hverify⟩, ?_⟩
    simp only [cacheBadge, hnone, hbadge, hdecode, hverify]
  | some err =>
    refine .inr ⟨?_, .errorf "failed to verify badge: %w" [] err, ?_⟩
    · rintro b ⟨badge', hbadge', hdecode', hverify'⟩
      obtain rfl := Option.some.inj (hbadge.symm.trans hbadge')
      obtain rfl := (Prod.mk.inj (hdecode.symm.trans hdecode')).1
      rw [hverify] at hverify'
      cases hverify'
    · simp only [cacheBadge, hnone, hbadge, hdecode, hverify]

/-- A badge that cannot be decoded leaves the empty badge behind, and so does one that is
missing. -/
theorem cacheBadge_of_not_readable (hnone : c.badge = none) (h : ¬ resp.Readable) :
    (c.cacheBadge credit resp.badge).2 = { c with badge := some emptyBadge } := by
  cases hbadge : resp.badge with
  | none => simp only [cacheBadge, hnone, unmarshalProto_none, verifyBadge_emptyBadge]
  | some badge =>
    cases hcreds : (Credentials.unmarshalProto badge.credentials).result with
    | ok creds => exact absurd ⟨badge, hbadge, creds, hcreds⟩ h
    | error err =>
      have hdecode : emptyBadge.unmarshalProto (some badge) = (emptyBadge, some err) :=
        unmarshalProto_error hcreds
      simp only [cacheBadge, hnone, hdecode]

theorem cacheBadge_fst (c : Client) (credit : BlindedCredit) (badge : Option Pb.Badge) :
    (∃ err, (c.cacheBadge credit badge).1 = .err err) ∨
      (c.cacheBadge credit badge).1 = .ok credit ∧
        ∃ b, (c.cacheBadge credit badge).2.badge = some b := by
  unfold cacheBadge
  split
  · next b h => exact .inr ⟨rfl, b, h⟩
  · split
    · exact .inl ⟨_, rfl⟩
    · split
      · exact .inl ⟨_, rfl⟩
      · exact .inr ⟨rfl, _, rfl⟩

/-! ## Calls -/

theorem newRequest_of_exchange_panic {value : Value} {env : CreditEnv}
    (h : c.exchange value env = .panic) : env.newRequest.isSome := by
  cases hrequest : env.newRequest with
  | some err => rfl
  | none =>
    simp only [exchange, hrequest] at h
    split at h
    · cases h
    · split at h
      · cases h
      · next heq => cases heq
      · cases h
      · split_ifs at h
        split at h
        · cases h
        · split at h <;> cases h

/-- What a call does to the client. -/
inductive Stepped (c : Client) (call : Call) : Client → Prop where
  /-- no credit arrives -/
  | quiet : c.receives call = none → Stepped c call c
  /-- a badge is cached -/
  | kept {r : Pb.AuthWithdrawalResponse} {b : Badge} : c.receives call = some r →
      c.badge = some b → Stepped c call (c.receive r)
  | filled {r : Pb.AuthWithdrawalResponse} {b : Badge} : c.receives call = some r →
      c.badge = none → r.Readable → r.Vouches b →
      Stepped c call { c.receive r with badge := some b }
  | refused {r : Pb.AuthWithdrawalResponse} : c.receives call = some r → c.badge = none →
      r.Readable → (∀ b, ¬ r.Vouches b) → Stepped c call { c.receive r with badge := none }
  /-- the badge that arrives cannot be decoded, or is missing -/
  | spoiled {r : Pb.AuthWithdrawalResponse} : c.receives call = some r → c.badge = none →
      ¬ r.Readable → Stepped c call { c.receive r with badge := some emptyBadge }

theorem Stepped.of_cacheBadge {call : Call} (hreceives : c.receives call = some resp) :
    Stepped c call ((c.receive resp).cacheBadge credit resp.badge).2 := by
  cases hbadge : c.badge with
  | some b =>
    rw [cacheBadge_of_some (show (c.receive resp).badge = some b from hbadge)]
    exact .kept hreceives hbadge
  | none =>
    have hnone : (c.receive resp).badge = none := hbadge
    by_cases hreadable : resp.Readable
    · obtain ⟨b, hvouches, hcache⟩ | ⟨hnot, err, hcache⟩ :=
        cacheBadge_of_readable credit hnone hreadable
      · rw [hcache]
        exact .filled hreceives hbadge hreadable hvouches
      · rw [hcache]
        exact .refused hreceives hbadge hreadable hnot
    · rw [cacheBadge_of_not_readable hnone hreadable]
      exact .spoiled hreceives hbadge hreadable

theorem stepped_doRetryingCreditRequest {call : Call} {value : Value} {env : CreditEnv}
    (hreceives : c.receives call = match c.exchange value env with
      | .ok (_, resp) => some resp
      | _ => none) :
    Stepped c call (c.doRetryingCreditRequest value env).2 := by
  rw [doRetryingCreditRequest]
  cases hexchange : c.exchange value env with
  | err err => exact .quiet (by rw [hreceives, hexchange])
  | panic => exact .quiet (by rw [hreceives, hexchange])
  | ok r => exact .of_cacheBadge (by rw [hreceives, hexchange])

theorem getBadge_of_none (hbadge : c.badge = none) (env : CreditEnv) :
    (c.getBadge env).2 = (c.getAttestationToken env).2 := by
  rw [getBadge, hbadge]
  dsimp only
  split <;> next h => rw [h]

theorem stepped_step (c : Client) (call : Call) : Stepped c call (c.step call) := by
  cases call with
  | creditRequest value env => exact stepped_doRetryingCreditRequest rfl
  | getBadge env =>
    cases hbadge : c.badge with
    | some b =>
      have hstep : c.step (.getBadge env) = c := by rw [step, getBadge, hbadge]
      rw [hstep]
      exact .quiet (by rw [receives, hbadge])
    | none =>
      rw [step, getBadge_of_none hbadge]
      refine stepped_doRetryingCreditRequest ?_
      rw [receives, hbadge]
      cases c.exchange attestationCurrencyValue env <;> rfl

theorem getBadge_cases (c : Client) (env : CreditEnv) :
    (∃ err, (c.getBadge env).1 = .err err) ∨
      ((c.getBadge env).1 = .panic ∧ env.newRequest.isSome) ∨
      ∃ b, (c.getBadge env).1 = .ok b ∧ (c.getBadge env).2.badge = some b := by
  cases hbadge : c.badge with
  | some b =>
    rw [getBadge, hbadge]
    exact .inr (.inr ⟨b, rfl, hbadge⟩)
  | none =>
    rw [getBadge, hbadge, getAttestationToken, doRetryingCreditRequest]
    cases hexchange : c.exchange attestationCurrencyValue env with
    | err err => exact .inl ⟨err, rfl⟩
    | panic => exact .inr (.inl ⟨rfl, newRequest_of_exchange_panic hexchange⟩)
    | ok r =>
      have hcache := (c.receive r.2).cacheBadge_fst r.1 r.2.badge
      dsimp only
      generalize (c.receive r.2).cacheBadge r.1 r.2.badge = res at hcache ⊢
      obtain ⟨res, c'⟩ := res
      obtain ⟨err, rfl⟩ | ⟨rfl, b, hb⟩ := hcache
      · exact .inl ⟨err, rfl⟩
      · refine .inr (.inr ⟨b, ?_, hb⟩)
        show Outcome.deref c'.badge = .ok b
        rw [show c'.badge = some b from hb]
        rfl

/-! ## Runs -/

/-- A cached badge was received and verified; while none is cached, none was received that would
pass. -/
structure Inv (c : Client) : Prop where
  vouched : c.Vouched
  none_vouches : c.badge = none → ∀ resp ∈ c.received, ∀ b, ¬ resp.Vouches b

theorem inv_newClient (payee : Issuer) : (newClient payee).Inv where
  vouched b h := by cases h
  none_vouches _ resp h := by cases h

theorem reads_iff {call : Call} (hreceives : c.receives call = some resp) (hnone : c.badge = none) :
    c.Reads call ↔ resp.Readable := by
  rw [Reads, hreceives]
  constructor
  · exact fun h => h hnone resp rfl
  · rintro h - resp' ⟨⟩
    exact h

theorem forall_mem_receive {P : Pb.AuthWithdrawalResponse → Prop} :
    (∀ r ∈ (c.receive resp).received, P r) ↔ (∀ r ∈ c.received, P r) ∧ P resp := by
  simp [receive, or_imp, forall_and]

theorem Inv.step (hinv : c.Inv) {call : Call} (hreads : c.Reads call) : (c.step call).Inv := by
  have hstep := c.stepped_step call
  generalize c.step call = c' at hstep
  cases hstep with
  | quiet _ => exact hinv
  | @kept resp b _ hbadge =>
    refine ⟨fun b' hb' => ?_, fun hnone => ?_⟩
    · obtain ⟨r, hmem, hvouches⟩ := hinv.vouched b' hb'
      exact ⟨r, List.mem_append_left _ hmem, hvouches⟩
    · have hnone : c.badge = none := hnone
      rw [hbadge] at hnone
      cases hnone
  | @filled resp b _ _ _ hvouches =>
    refine ⟨fun b' hb' => ?_, fun hnone => by cases hnone⟩
    obtain rfl := Option.some.inj hb'
    exact ⟨resp, List.mem_append_right _ List.mem_cons_self, hvouches⟩
  | refused _ hbadge _ hnot =>
    refine ⟨fun b' hb' => (by cases hb'), fun _ => ?_⟩
    exact forall_mem_receive.2 ⟨hinv.none_vouches hbadge, hnot⟩
  | spoiled hreceives hbadge hunreadable =>
    exact absurd ((reads_iff hreceives hbadge).1 hreads) hunreadable

/-- The cached badge stays vouched for exactly if what arrives can be read. -/
theorem vouched_step_iff (hinv : c.Inv) (call : Call) : (c.step call).Vouched ↔ c.Reads call := by
  refine ⟨fun hvouched => ?_, fun hreads => (hinv.step hreads).vouched⟩
  have hstep := c.stepped_step call
  generalize c.step call = c' at hstep hvouched
  cases hstep with
  | quiet hreceives =>
    intro _ resp h
    rw [hreceives] at h
    cases h
  | kept _ hbadge =>
    intro hnone
    rw [hbadge] at hnone
    cases hnone
  | filled hreceives hbadge hreadable _ => exact (reads_iff hreceives hbadge).2 hreadable
  | refused hreceives hbadge hreadable _ => exact (reads_iff hreceives hbadge).2 hreadable
  | @spoiled resp hreceives hbadge hunreadable =>
    -- no response vouches for the empty badge that is cached
    obtain ⟨r, hmem, hvouches⟩ := hvouched emptyBadge rfl
    have hnot := forall_mem_receive.2 ⟨hinv.none_vouches hbadge,
      not_vouches_of_not_readable hunreadable⟩ r hmem
    exact absurd hvouches (hnot emptyBadge)

theorem handsOut_of_vouched {call : Call} (h : (c.step call).Vouched) : c.HandsOut call := by
  cases call with
  | creditRequest value env => trivial
  | getBadge env =>
    have hvouched : (c.getBadge env).2.Vouched := h
    rw [HandsOut]
    rcases c.getBadge_cases env with ⟨err, herr⟩ | ⟨hpanic, hrequest⟩ | ⟨b, hok, hbadge⟩
    · rw [herr]
      exact ⟨nofun, nofun⟩
    · rw [hpanic]
      exact ⟨nofun, fun _ => hrequest⟩
    · rw [hok]
      refine ⟨fun b' hb' => ?_, nofun⟩
      obtain rfl := Outcome.ok.inj hb'
      exact hvouched _ hbadge

/-- The client keeps and hands out only badges that it received and verified exactly if, while it
has none, every response that brings a credit has a badge that can be decoded. -/
theorem vouched_iff_reads (payee : Issuer) (calls : List Call) :
    (Trace.Always step Vouched (newClient payee) calls ∧
        Trace.Along step HandsOut (newClient payee) calls) ↔
      Trace.Along step Reads (newClient payee) calls := by
  have hinv := inv_newClient payee
  have halways : Trace.Always step Vouched (newClient payee) calls ↔
      Trace.Along step Reads (newClient payee) calls :=
    Trace.always_iff_along_of_inv (fun _ (h : Inv _) => h.vouched)
      (fun c call (h : Inv c) => vouched_step_iff h call) (fun c call h => h.step) hinv
  refine ⟨fun h => halways.1 h.1, fun h => ⟨halways.2 h, ?_⟩⟩
  exact Trace.along_of_step (fun c call (hc : Inv c) => hc.step)
    (fun c call hc hreads => handsOut_of_vouched (hc.step hreads).vouched) hinv h

/-! ## A badge that cannot be decoded -/

/-- A response with status 200 that brings a credit and this badge. -/
def envOf (badge : Option Pb.Badge) : CreditEnv where
  draw := ⟨.ok ([], []), .ok ⟨0, [], false⟩⟩
  marshal := none
  newRequest := none
  doWith := .ok ⟨200, .ok ⟨[], badge⟩, .new "" []⟩

/-- The models are one byte, which is no name. -/
def brokenEnv : CreditEnv := envOf (some ⟨some ⟨[1]⟩, [7]⟩)

theorem not_reads_brokenEnv : ¬ (newClient ⟨.accepting⟩).Reads (.getBadge brokenEnv) := by
  intro h
  obtain ⟨badge, hbadge, creds, hcreds⟩ := h rfl ⟨[], some ⟨some ⟨[1]⟩, [7]⟩⟩ rfl
  obtain rfl := Option.some.inj hbadge
  have hdecode : (Credentials.unmarshalProto (some ⟨[1]⟩)).result =
      .error (.errorf "failed to decode string length: %w" [] errUnexpectedEOF) := rfl
  rw [hdecode] at hcreds
  cases hcreds

/-- The first call returns an error and the second one the empty badge. -/
theorem emptyBadge_handed_out :
    (∃ err, ((newClient ⟨.accepting⟩).getBadge brokenEnv).1 = .err err) ∧
      (((newClient ⟨.accepting⟩).step (.getBadge brokenEnv)).getBadge brokenEnv).1 =
        .ok emptyBadge ∧
      ¬ (Trace.Always step Vouched (newClient ⟨.accepting⟩)
          [.getBadge brokenEnv, .getBadge brokenEnv] ∧
        Trace.Along step HandsOut (newClient ⟨.accepting⟩)
          [.getBadge brokenEnv, .getBadge brokenEnv]) := by
  refine ⟨⟨_, rfl⟩, rfl, ?_⟩
  rintro ⟨⟨-, hvouched, -⟩, -⟩
  exact not_reads_brokenEnv ((vouched_step_iff (inv_newClient _) _).1 hvouched)

end Client

end Auth
