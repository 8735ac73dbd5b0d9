import OpenPCC.Lib.Bag
import OpenPCC.Lib.Trace
import OpenPCC.Wallet.Payment

/-!
# The counter of the open payments

A step counts a payment that begins and marks one that is completed or given up before its request
was enqueued (`Moves`). A request that is answered with an error is given up without a mark, so from
then on the counter is too high by one. All other steps keep the counter equal to the number of
payments that are owed a completion (`Moves.balance`).
-/

namespace Wallet

open Go Anonpay

namespace Payments

variable {prefetchAmount : Int} {s s' : Payments} {a : PaymentAct}

/-! ## What a step does -/

inductive Moves (s : Payments) (a : PaymentAct) (s' : Payments) : Prop
  | same (ha : ¬s.ErrorReceived a) (hwg : s'.paymentsWG = s.paymentsWG)
      (hphases : s'.phases = s.phases) (hresults : s'.results = s.results)
  | begin (ha : ¬s.ErrorReceived a) (req : PaymentRequest)
      (hs : s' = { s with
        paymentsWG := s.paymentsWG + 1
        phases := s.phases ++ [.enqueueing req] })
  | move (ha : ¬s.ErrorReceived a) (i : Nat) (x y : PaymentPhase) (hi : s.phases[i]? = some x)
      (hx : x.owed = true) (hy : y.owed = true) (hs : s' = s.setPhase i y)
  | finish (ha : ¬s.ErrorReceived a) (i : Nat) (x y : PaymentPhase) (hi : s.phases[i]? = some x)
      (hx : x.owed = true) (hy : y.owed = false) (hs : s' = (s.setPhase i y).done)
  | result (ha : ¬s.ErrorReceived a) (i : Nat) (result : PaymentResult)
      (hi : s.phases[i]? = some (.completing result))
      (hs : s' = { (s.setPhase i .completed).done with results := s.results ++ [(i, result)] })
  | error (ha : s.ErrorReceived a) (i : Nat) (x : PaymentPhase) (err : Err)
      (hi : s.phases[i]? = some x) (hx : x.owed = true) (hs : s' = s.setPhase i (.failed err))

theorem Moves.of_complete {i : Nat} {x : PaymentPhase} {unspend : Option AnyCredit}
    (ha : ¬s.ErrorReceived a) (hi : s.phases[i]? = some x) (hx : x.owed = true) :
    Moves s a (s.complete i unspend) := by
  unfold complete
  split
  · exact .finish ha i x _ hi hx rfl rfl
  · split
    · exact .finish ha i x _ hi hx rfl rfl
    · exact .move ha i x _ hi hx rfl rfl

theorem Moves.of_cancelPayment {i : Nat} {x : PaymentPhase} {credit : Option BlindedCredit}
    (ha : ¬s.ErrorReceived a) (hi : s.phases[i]? = some x) (hx : x.owed = true)
    (h : s.cancelPayment i credit = some s') : Moves s a s' := by
  cases credit with
  | none => cases h
  | some credit =>
    cases h
    exact .of_complete ha hi hx

theorem Moves.of_receive {i : Nat} {x : PaymentPhase} {resp : PaymentResponse}
    (ha : s.ErrorReceived a ↔ resp.err ≠ none) (hi : s.phases[i]? = some x)
    (h : s.receive i x resp = some s') : Moves s a s' := by
  unfold receive at h
  split at h
  next err herr =>
    cases h
    exact .error (ha.2 (by simp [herr])) i _ err hi rfl rfl
  next herr =>
    cases h
    exact .move (by simp [ha, herr]) i _ _ hi rfl rfl rfl
  next err herr =>
    cases h
    exact .error (ha.2 (by simp [herr])) i _ err hi rfl rfl
  next herr => exact .of_cancelPayment (by simp [ha, herr]) hi rfl h
  next => cases h

theorem Moves.of_beginPayment {rounded : Except Err Value}
    (h : s.beginPayment prefetchAmount rounded = .ok s') : Moves s (.begin rounded) s' := by
  unfold beginPayment at h
  split at h
  · cases h
  next val =>
    split at h
    · cases h
    · split at h
      · cases h
      · cases h
        exact .begin nofun (newPaymentRequest val) rfl

theorem Moves.of_step (h : s.step prefetchAmount a = some s') : Moves s a s' := by
  cases a with
  | begin rounded =>
    simp only [step] at h
    split at h <;> cases h
    · exact .same nofun rfl rfl rfl
    next hbegin => exact .of_beginPayment hbegin
  | enqueue i =>
    simp only [step] at h
    split at h
    next req hi =>
      split at h <;> cases h
      exact .move nofun i _ _ hi rfl rfl rfl
    next => cases h
  | cancelCtx i err =>
    simp only [step] at h
    split at h
    next req hi =>
      cases h
      exact .finish nofun i _ _ hi rfl rfl rfl
    next req hi =>
      cases h
      exact .move nofun i _ _ hi rfl rfl rfl
    next => cases h
  | deposit i transferID creds =>
    obtain ⟨phase, hi, h⟩ := Option.bind_eq_some_iff.1 h
    obtain ⟨req, hreq, h⟩ := Option.bind_eq_some_iff.1 h
    refine .of_receive ?_ hi h
    simp [ErrorReceived, hi, hreq]
  | fail i err =>
    obtain ⟨phase, hi, h⟩ := Option.bind_eq_some_iff.1 h
    obtain ⟨req, hreq, h⟩ := Option.bind_eq_some_iff.1 h
    refine .of_receive ?_ hi h
    simp [ErrorReceived, hi, hreq]
  | dropFail i =>
    obtain ⟨phase, hi, rfl⟩ := Option.map_eq_some_iff.1 h
    exact .same nofun rfl rfl rfl
  | success i unspend =>
    simp only [step] at h
    split at h
    next credit hi =>
      cases h
      exact .of_complete nofun hi rfl
    next =>
      cases h
      exact .same nofun rfl rfl rfl
    next => cases h
  | cancel i =>
    simp only [step] at h
    split at h
    next credit hi => exact .of_cancelPayment nofun hi rfl h
    next =>
      cases h
      exact .same nofun rfl rfl rfl
    next => cases h
  | sendResult i =>
    simp only [step] at h
    split at h
    next result hi =>
      split at h <;> cases h
      exact .result nofun i result hi rfl
    next => cases h
  | close =>
    cases h
    exact .same nofun rfl rfl rfl
  | finishClose =>
    simp only [step] at h
    split at h <;> cases h
    exact .same nofun rfl rfl rfl

theorem Moves.of_enabled (h : s.Enabled prefetchAmount a) :
    Moves s a (s.next prefetchAmount a) := by
  obtain ⟨s', hs'⟩ := Option.isSome_iff_exists.1 h
  rw [next, hs']
  exact .of_step hs'

/-! ## The counter -/

theorem owed_setPhase {i : Nat} {x : PaymentPhase} (hi : s.phases[i]? = some x)
    (hx : x.owed = true) (y : PaymentPhase) :
    (s.setPhase i y).owed + 1 = s.owed + if y.owed then 1 else 0 := by
  have hcount := Bag.countP_set hi y (·.owed)
  rw [hx, if_pos rfl] at hcount
  exact hcount

/-- An error that is received makes the counter too high by one, for good. -/
theorem Moves.surplus (h : Moves s a s') :
    ¬s.ErrorReceived a ∧ s'.paymentsWG - s'.owed = s.paymentsWG - s.owed ∨
      s.ErrorReceived a ∧ s'.paymentsWG - s'.owed = s.paymentsWG - s.owed + 1 := by
  cases h with
  | same ha hwg hphases hresults =>
    refine .inl ⟨ha, ?_⟩
    rw [hwg, owed, hphases]
    rfl
  | begin ha req hs' =>
    have howed : s'.owed = s.owed + 1 := by
      rw [hs', owed, List.countP_append]
      rfl
    have hwg : s'.paymentsWG = s.paymentsWG + 1 := by rw [hs']
    exact .inl ⟨ha, by omega⟩
  | move ha i x y hi hx hy hs' =>
    have howed := owed_setPhase hi hx y
    rw [hy, if_pos rfl, ← hs'] at howed
    have hwg : s'.paymentsWG = s.paymentsWG := by rw [hs', setPhase]
    exact .inl ⟨ha, by omega⟩
  | finish ha i x y hi hx hy hs' =>
    have hset := owed_setPhase hi hx y
    rw [hy] at hset
    have howed : s'.owed + 1 = s.owed := by
      rw [hs']
      exact hset
    have hwg : s'.paymentsWG = s.paymentsWG - 1 := by rw [hs', done, setPhase]
    exact .inl ⟨ha, by omega⟩
  | result ha i result hi hs' =>
    have howed : s'.owed + 1 = s.owed := by
      rw [hs']
      exact owed_setPhase hi rfl .completed
    have hwg : s'.paymentsWG = s.paymentsWG - 1 := by rw [hs', done, setPhase]
    exact .inl ⟨ha, by omega⟩
  | error ha i x err hi hx hs' =>
    have howed : s'.owed + 1 = s.owed := by
      rw [hs']
      exact owed_setPhase hi hx (.failed err)
    have hwg : s'.paymentsWG = s.paymentsWG := by rw [hs', setPhase]
    exact .inr ⟨ha, by omega⟩

theorem Moves.balance (h : Moves s a s') (hs : s.paymentsWG = s.owed) :
    s'.paymentsWG = s'.owed ↔ ¬s.ErrorReceived a := by
  obtain ⟨ha, heq⟩ | ⟨ha, heq⟩ := h.surplus
  · exact iff_of_true (by omega) ha
  · exact iff_of_false (by omega) (not_not.2 ha)

/-! ## The results -/

/-- Only a completed payment has enqueued a result, and it has enqueued one. -/
structure Results (s : Payments) : Prop where
  completed : ∀ r ∈ s.results, s.phases[r.1]? = some .completed
  nodup : (s.results.map Prod.fst).Nodup

theorem Results.setPhase {i : Nat} {x : PaymentPhase} (h : Results s)
    (hi : s.phases[i]? = some x) (hx : x.owed = true) (y : PaymentPhase) :
    Results (s.setPhase i y) := by
  refine ⟨fun r hr => ?_, h.nodup⟩
  have hcompleted := h.completed r hr
  have hne : i ≠ r.1 := by
    rintro rfl
    rw [hi] at hcompleted
    cases hcompleted
    cases hx
  exact (List.getElem?_set_ne hne).trans hcompleted

theorem Results.moves (h : Results s) (hs : Moves s a s') : Results s' := by
  cases hs with
  | same ha hwg hphases hresults =>
    refine ⟨?_, by rw [hresults]; exact h.nodup⟩
    rw [hresults, hphases]
    exact h.completed
  | begin ha req hs' =>
    subst hs'
    refine ⟨fun r hr => ?_, h.nodup⟩
    have hcompleted := h.completed r hr
    obtain ⟨hlt, -⟩ := List.getElem?_eq_some_iff.1 hcompleted
    exact (List.getElem?_append_left hlt).trans hcompleted
  | move ha i x y hi hx hy hs' =>
    subst hs'
    exact h.setPhase hi hx y
  | finish ha i x y hi hx hy hs' =>
    subst hs'
    have hset := h.setPhase hi hx y
    exact ⟨hset.completed, hset.nodup⟩
  | error ha i x err hi hx hs' =>
    subst hs'
    exact h.setPhase hi hx (.failed err)
  | result ha i result hi hs' =>
    subst hs'
    have hset := h.setPhase hi rfl .completed
    -- The payment was not completed, so it has no result yet.
    have hnot : i ∉ s.results.map Prod.fst := by
      intro hmem
      obtain ⟨r, hr, rfl⟩ := List.mem_map.1 hmem
      have hcompleted := h.completed r hr
      rw [hi] at hcompleted
      cases hcompleted
    obtain ⟨hlt, -⟩ := List.getElem?_eq_some_iff.1 hi
    refine ⟨List.forall_mem_append.2 ⟨hset.completed, List.forall_mem_singleton.2 ?_⟩, ?_⟩
    · exact List.getElem?_set_self hlt
    · rw [List.map_append]
      refine List.nodup_append.2 ⟨h.nodup, List.nodup_singleton i, fun j hj k hk => ?_⟩
      rw [List.mem_singleton.1 hk]
      rintro rfl
      exact hnot hj

/-! ## Whole runs -/

/-- In every run of the wallet, the counter always is the number of payments owed a completion and
every payment enqueues at most one result, if and only if no request is answered with an error. -/
theorem balanced_iff_no_error (prefetchAmount : Int) (acts : List PaymentAct)
    (hrun : Trace.Along (next prefetchAmount) (Enabled prefetchAmount) {} acts) :
    Trace.Always (next prefetchAmount) Balanced {} acts ↔
      Trace.Along (next prefetchAmount) (fun s a => ¬s.ErrorReceived a) {} acts := by
  have hresults : Trace.Always (next prefetchAmount) Results {} acts :=
    Trace.always_of_step (fun _ _ h he => h.moves (.of_enabled he)) ⟨nofun, List.nodup_nil⟩ hrun
  have hcounter := Trace.always_iff_along (P := fun s => s.paymentsWG = s.owed)
    (fun _ _ hs he => (Moves.of_enabled he).balance hs) rfl hrun
  rw [← hcounter]
  constructor
  · exact fun h => h.mono fun _ hs => hs.1
  · exact fun h => (h.and hresults).mono fun _ hs => ⟨hs.1, hs.2.nodup⟩

/-- Once the counter is too high, `Close` waits for ever. -/
theorem close_waits (hs : s.owed < s.paymentsWG) {acts : List PaymentAct}
    (hrun : Trace.Along (next prefetchAmount) (Enabled prefetchAmount) s acts) :
    .finishClose ∉ acts := by
  have hsteps := Trace.along_of_step (P := fun s => (s.owed : Int) < s.paymentsWG)
    (Q := fun _ a => a ≠ .finishClose) (fun s a h he => ?_) (fun s a h he => ?_) hs hrun
  · exact fun hmem => (Trace.along_iff_forall_mem.1 hsteps) _ hmem rfl
  · obtain ⟨-, heq⟩ | ⟨-, heq⟩ := (Moves.of_enabled he).surplus <;> omega
  · rintro rfl
    obtain ⟨s', hs'⟩ := Option.isSome_iff_exists.1 he
    simp only [step] at hs'
    split at hs'
    next hzero => omega
    next => cases hs'

/-- A payment that is cancelled after it was returned, and one that is given up early. -/
def settledRun : List PaymentAct :=
  [.begin (.ok (.ofNat 4)), .enqueue 0, .begin (.ok (.ofNat 2)),
    .deposit 0 [1] [⟨.ofNat 4, ⟨0, [], false⟩, []⟩], .cancelCtx 1 (.var .canceled),
    .cancel 0, .close, .sendResult 0, .cancel 0, .finishClose]

theorem balanced_iff_no_error_settled :
    (settledRun.foldl (next 8) {}).inputsClosed = true ∧
      Trace.Always (next 8) Balanced {} settledRun := by
  refine ⟨by decide, ?_⟩
  rw [balanced_iff_no_error 8 settledRun (by decide)]
  refine ⟨nofun, nofun, nofun, ?_, nofun, nofun, nofun, nofun, nofun, nofun, trivial⟩
  rintro ⟨phase, req, hphase, hreq, herr⟩
  cases hphase
  cases hreq
  exact herr rfl

/-- A request is answered with an error, and nothing else happens until the wallet is closed. -/
def rejected : List PaymentAct :=
  [.begin (.ok (.ofNat 4)), .enqueue 0, .fail 0 (.new "no credits available" []), .close]

theorem rejected_not_balanced :
    Trace.Along (next 8) (Enabled 8) {} rejected ∧
      let s := rejected.foldl (next 8) {}
      s.owed = 0 ∧ s.paymentsWG = 1 ∧ ¬s.Balanced ∧ ¬s.Enabled 8 .finishClose := by
  decide

end Payments

end Wallet
