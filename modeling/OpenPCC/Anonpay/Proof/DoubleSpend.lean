import Mathlib.Data.List.Induction
import OpenPCC.Anonpay.Clients

/-!
# No double spend

Two halves meet in `no_double_spend`.

* The clients: a client yields value only for a nonce it has consumed, one consumption for each
  yield (`Client.prog_funded`). This is a fact about each program alone, whatever replies it gets.
* The locker: once a nonce is consumed, no lock, consume or release of it succeeds
  (`LockerInv.served`), so a run has at most one consumption of it.
-/

namespace Anonpay

open Go Prog

/-! ## A client pays for what it yields -/

/-- The events hold `k` consumptions of `n` more than yields. -/
def Funded (n : Bytes) (k : Nat) (l : List Event) : Prop :=
  l.countP (yields n) + k ≤ l.countP (consumes n)

section
variable {n : Bytes} {k : Nat} {l : List Event} {x : Event}

theorem Funded.nil : Funded n 0 [] := by simp [Funded]

theorem Funded.snoc (h : Funded n k l) (hx : yields n x = false) : Funded n k (l ++ [x]) := by
  have hc : l.countP (consumes n) ≤ (l ++ [x]).countP (consumes n) := by simp
  have hy : (l ++ [x]).countP (yields n) = l.countP (yields n) := by simp [hx]
  unfold Funded at *
  omega

theorem Funded.consume (h : Funded n k l) (hx : consumes n x = true) (hy : yields n x = false) :
    Funded n (k + 1) (l ++ [x]) := by
  unfold Funded at *
  simp [hx, hy]
  omega

theorem Funded.yield (h : Funded n 1 l) (x : Event) : Funded n 0 (l ++ [x]) := by
  have hc : l.countP (consumes n) ≤ (l ++ [x]).countP (consumes n) := by simp
  have hy : (l ++ [x]).countP (yields n) ≤ l.countP (yields n) + 1 := by
    rw [List.countP_append]
    exact Nat.add_le_add_left (List.countP_le_length (l := [x])) _
  unfold Funded at *
  omega

end

/-- A yield is allowed when a consumption of its nonce is left for it. -/
def guard (l : List Event) (e : Call) : Prop :=
  ∀ n r, yields n ⟨e, r⟩ = true → Funded n 1 l

/-- Every nonce is funded. -/
abbrev AllFunded (l : List Event) : Prop := ∀ n, Funded n 0 l

theorem guard_of_no_yield {l : List Event} {e : Call} (h : ∀ n r, yields n ⟨e, r⟩ = false) :
    guard l e := fun n r hy => by simp [h n r] at hy

section
variable {α β : Type} {l : List Event}

theorem holds_call {e : Call} {k : e.Reply → Op α} {Q : List Event → α → Prop}
    (he : ∀ n r, yields n ⟨e, r⟩ = false) (hl : AllFunded l)
    (hk : ∀ r l', AllFunded l' → Holds guard Q (k r) l') :
    Holds guard Q (.call e k) l :=
  ⟨guard_of_no_yield he, fun r => hk r _ fun n => (hl n).snoc (he n r)⟩

theorem checkAndLockNonce_funded (m : Nonce) (hl : AllFunded l) :
    Holds guard (fun l' _ => AllFunded l') (checkAndLockNonce m) l := by
  refine holds_call (fun _ _ => rfl) hl fun r l' hl' => ?_
  cases r <;> exact hl'

theorem release_funded {m : Nonce} (lock : LockedNonce m) (hl : AllFunded l) :
    Holds guard (fun l' _ => AllFunded l') lock.release l :=
  holds_call (fun _ _ => rfl) hl fun _ _ hl' => hl'

theorem consume_funded {m : Nonce} (lock : LockedNonce m) (hl : AllFunded l) :
    Holds guard (fun l' err => AllFunded l' ∧ (err = none → Funded m.nonce 1 l'))
      lock.consume l := by
  refine ⟨guard_of_no_yield fun _ _ => rfl, fun err => ⟨fun n => (hl n).snoc rfl, ?_⟩⟩
  rintro rfl
  exact (hl m.nonce).consume (by simp [consumes]) rfl

namespace Transaction

variable (tx : Transaction)

theorem ctxDone_funded {n : Bytes} {k : Nat} (hl : AllFunded l) (hk : Funded n k l) :
    Holds guard (fun l' _ => AllFunded l' ∧ Funded n k l') tx.ctxDone l := by
  unfold ctxDone
  cases tx.done with
  | some d => exact ⟨hl, hk⟩
  | none =>
    refine ⟨guard_of_no_yield fun _ _ => rfl, fun r => ?_⟩
    exact ⟨fun n => (hl n).snoc rfl, hk.snoc rfl⟩

theorem cancelFunc_funded (cause : Err) {n : Bytes} {k : Nat} (hl : AllFunded l)
    (hk : Funded n k l) :
    Holds guard (fun l' tx' => tx'.credit = tx.credit ∧ AllFunded l' ∧ Funded n k l')
      (tx.cancelFunc cause) l := by
  refine (tx.ctxDone_funded hl hk).bind fun l' d h => ?_
  cases d <;> exact ⟨rfl, h⟩

theorem commit_funded (hl : AllFunded l) :
    Holds guard (fun l' r => r.2.credit = tx.credit ∧ AllFunded l' ∧
      (r.1 = none → Funded tx.credit.nonce.nonce 1 l')) tx.commit l := by
  refine (tx.ctxDone_funded hl (hl tx.credit.nonce.nonce)).bind fun l₁ d h₁ => ?_
  cases d with
  | some d => exact ⟨rfl, h₁.1, nofun⟩
  | none =>
    refine (consume_funded tx.lockedNonce h₁.1).bind fun l₂ err h₂ => ?_
    cases err with
    | some e =>
      refine (release_funded tx.lockedNonce h₂.1).bind fun l₃ e' h₃ => ?_
      refine (tx.cancelFunc_funded _ h₃ (h₃ [])).bind fun l₄ tx' h₄ => ?_
      exact ⟨h₄.1, h₄.2.1, nofun⟩
    | none =>
      refine (tx.cancelFunc_funded _ h₂.1 (h₂.2 rfl)).bind fun l₃ tx' h₃ => ?_
      exact ⟨h₃.1, h₃.2.1, fun _ => h₃.2.2⟩

theorem rollback_funded (hl : AllFunded l) :
    Holds guard (fun l' _ => AllFunded l') tx.rollback l := by
  refine (tx.ctxDone_funded hl (hl [])).bind fun l₁ d h₁ => ?_
  cases d with
  | some d => exact h₁.1
  | none =>
    refine (release_funded tx.lockedNonce h₁.1).bind fun l₂ err h₂ => ?_
    cases err <;> exact h₂

end Transaction

theorem beginTransaction_funded (issuer : Issuer) (cred : BlindedCredit) (hl : AllFunded l) :
    Holds guard (fun l' r => AllFunded l' ∧ ∀ tx, r = .ok tx → tx.credit = cred)
      (beginTransaction issuer cred) l := by
  unfold beginTransaction
  cases issuer.verifyCredit (.blinded cred) with
  | some e => exact ⟨hl, nofun⟩
  | none =>
    refine (checkAndLockNonce_funded cred.nonce hl).bind fun l' r hl' => ?_
    cases r with
    | error e => exact ⟨hl', nofun⟩
    | ok lock => exact ⟨hl', fun tx h => by cases h; rfl⟩

theorem exchangerExchange_funded (issuer : Issuer) (credit : AnyCredit) (req : BlindSignRequest)
    (hl : AllFunded l) :
    Holds guard (fun l' r => AllFunded l' ∧ ∀ sig, r = .ok sig → Funded credit.nonce.nonce 1 l')
      (exchangerExchange issuer credit req) l := by
  unfold exchangerExchange
  split
  · exact ⟨hl, nofun⟩
  · cases issuer.verifyCredit credit with
    | some e => exact ⟨hl, nofun⟩
    | none =>
      refine (checkAndLockNonce_funded credit.nonce hl).bind fun l₁ r h₁ => ?_
      cases r with
      | error e => exact ⟨h₁, nofun⟩
      | ok lock =>
        dsimp only
        cases issuer.blindSign req with
        | error e =>
          refine (release_funded lock h₁).bind fun l₂ e' h₂ => ?_
          exact ⟨h₂, nofun⟩
        | ok sig =>
          refine (consume_funded lock h₁).bind fun l₂ err h₂ => ?_
          cases err with
          | some e => exact ⟨h₂.1, nofun⟩
          | none => exact ⟨h₂.1, fun _ _ => h₂.2 rfl⟩

theorem holds_yield {e : Call} {m : Bytes} {k : e.Reply → Op α} {Q : List Event → α → Prop}
    (he : ∀ n r, yields n ⟨e, r⟩ = true → n = m) (hl : AllFunded l) (hm : Funded m 1 l)
    (hk : ∀ r l', AllFunded l' → Holds guard Q (k r) l') : Holds guard Q (.call e k) l := by
  refine ⟨fun n r hy => he n r hy ▸ hm, fun r => hk r _ fun n => ?_⟩
  cases hy : yields n ⟨e, r⟩ with
  | false => exact (hl n).snoc hy
  | true => exact (he n r hy ▸ hm).yield _

theorem depositTx_funded (account : Bytes) (amount : Int) (tx : Transaction) (hl : AllFunded l) :
    Holds guard (fun l' _ => AllFunded l') (depositTx account amount tx.credit tx) l := by
  refine (tx.commit_funded hl).bind fun l₁ r h₁ => ?_
  obtain ⟨err, tx'⟩ := r
  cases err with
  | some e => exact (tx'.rollback_funded h₁.2.1).bind fun _ _ h₂ => h₂
  | none =>
    refine holds_yield (fun n r hy => ?_) h₁.2.1 (h₁.2.2 rfl) fun balance l₂ h₂ => ?_
    · exact (eq_of_beq hy).symm
    · change Holds guard _ (tx'.rollback >>= _) l₂
      exact (tx'.rollback_funded h₂).bind fun _ _ h₃ => h₃

theorem deposit_funded (issuer : Issuer) (account : Bytes) (credit : BlindedCredit)
    (hl : AllFunded l) :
    Holds guard (fun l' _ => AllFunded l') (deposit issuer account credit) l := by
  unfold deposit
  cases credit.value.amount with
  | error e => exact hl
  | ok amount =>
    dsimp only
    split
    · exact hl
    · refine (beginTransaction_funded issuer credit hl).bind fun l₁ r h₁ => ?_
      cases r with
      | error e => exact h₁.1
      | ok tx =>
        rw [← h₁.2 tx rfl]
        exact depositTx_funded account amount tx h₁.1

theorem returned_commit_funded {m : Nonce} {err : Option Err} {p : Unit → Op α}
    {Q : List Event → α → Prop} (hl : AllFunded l) (hm : err = none → Funded m.nonce 1 l)
    (hp : ∀ l', AllFunded l' → Holds guard Q (p ()) l') :
    Holds guard Q (.call (.returned (.commit m err)) p) l := by
  cases err with
  | some e => exact holds_call (fun _ _ => rfl) hl fun _ l' hl' => hp l' hl'
  | none =>
    exact holds_yield (fun n r hy => (eq_of_beq hy).symm) hl (hm rfl) fun _ l' hl' => hp l' hl'

theorem Transaction.calls_funded (tx : Transaction) (cs : List TxCall) (hl : AllFunded l) :
    Holds guard (fun l' _ => AllFunded l') (tx.calls cs) l := by
  induction cs generalizing tx l with
  | nil => exact hl
  | cons c cs ih =>
    cases c with
    | commit =>
      refine (tx.commit_funded hl).bind fun l₁ r h₁ => ?_
      exact returned_commit_funded h₁.2.1 (fun h => h₁.1 ▸ h₁.2.2 h) fun l₂ h₂ => ih _ h₂
    | commitWithUnspend d unspend =>
      refine (tx.commit_funded hl).bind fun l₁ r h₁ => ?_
      refine returned_commit_funded h₁.2.1 (fun h => h₁.1 ▸ h₁.2.2 h) fun l₂ h₂ => ?_
      exact holds_call (fun _ _ => rfl) h₂ fun _ l₃ h₃ => ih _ h₃
    | rollback => exact (tx.rollback_funded hl).bind fun l₁ _ h₁ => ih tx h₁

/-- Whatever replies a client gets, it yields value only for nonces it has consumed. -/
theorem Client.prog_funded (issuer : Issuer) (c : Client) :
    Holds guard (fun _ _ => True) (c.prog issuer) [] := by
  have hnil : AllFunded [] := fun _ => .nil
  cases c with
  | deposit account credit =>
    refine (deposit_funded issuer account credit hnil).bind fun l₁ _ _ => ?_
    trivial
  | exchange credit req =>
    refine (exchangerExchange_funded issuer credit req hnil).bind fun l₁ r h₁ => ?_
    cases r with
    | error e => exact holds_call (fun _ _ => rfl) h₁.1 fun _ _ _ => trivial
    | ok sig =>
      exact holds_yield (fun n r hy => (eq_of_beq hy).symm) h₁.1 (h₁.2 sig rfl) fun _ _ _ => trivial
  | transaction credit cs =>
    refine (beginTransaction_funded issuer credit hnil).bind fun l₁ r h₁ => ?_
    cases r with
    | error e => trivial
    | ok tx => exact (tx.calls_funded cs h₁.1).mono fun _ _ _ => trivial

end

/-! ## The locker consumes a nonce once -/

variable {ι : Type}

/-- A nonce that was consumed is consumed in the table, and nothing succeeded on it since. -/
def LockerInv (n : Bytes) (w : Shared ι) (l : List (ι × Event)) : Prop :=
  (∀ pre x post, l = pre ++ x :: post → consumes n x.2 = true →
    ∀ y ∈ post, succeeds n y.2 = false) ∧
  ((∃ x ∈ l, consumes n x.2 = true) → w.locker.status n = .consumed)

section
variable {i : ι} {w w' : Shared ι} {e : Call} {r : e.Reply} {n : Bytes}

theorem served_consumed (h : Served i w e r w') (hn : w.locker.status n = .consumed) :
    succeeds n ⟨e, r⟩ = false ∧ w'.locker.status n = .consumed := by
  obtain ⟨now, rand, h⟩ := h
  cases e with
  | checkAndLockNonce m =>
    rcases InMem.lockNonce_cases now rand w.locker m with ⟨e, he⟩ | ⟨t, l', he, hm, hst⟩
    · simp only [serve, he] at h
      cases h
      exact ⟨rfl, hn⟩
    · have hne : n ≠ m.nonce := fun h => by simp [← h, hn] at hm
      simp only [serve, he] at h
      cases h
      simp [succeeds, hst, hne, hne.symm, hn]
  | consume m t =>
    rcases InMem.consumeNonce_cases w.locker m t with ⟨e, he⟩ | ⟨t', l', he, hm, hst⟩
    · simp only [serve, he] at h
      cases h
      exact ⟨rfl, hn⟩
    · have hne : n ≠ m.nonce := fun h => by simp [← h, hn] at hm
      simp only [serve, he] at h
      cases h
      simp [succeeds, hst, hne, hne.symm, hn]
  | release m t =>
    rcases InMem.releaseNonce_cases w.locker m t with ⟨e, he⟩ | ⟨t', l', he, hm, hst⟩
    · simp only [serve, he] at h
      cases h
      exact ⟨rfl, hn⟩
    · have hne : n ≠ m.nonce := fun h => by simp [← h, hn] at hm
      simp only [serve, he] at h
      cases h
      simp [succeeds, hst, hne, hne.symm, hn]
  | callerCtx | updateBalance _ _ _ | returned _ =>
    cases h
    exact ⟨rfl, hn⟩

theorem served_consumes (h : Served i w e r w') (hc : consumes n ⟨e, r⟩ = true) :
    w'.locker.status n = .consumed := by
  obtain ⟨now, rand, h⟩ := h
  cases e with
  | consume m t =>
    rcases InMem.consumeNonce_cases w.locker m t with ⟨e, he⟩ | ⟨t', l', he, -, hst⟩
    · simp only [serve, he] at h
      cases h
      cases hc
    · simp only [serve, he] at h
      cases h
      have hm : m.nonce = n := by simpa [consumes] using hc
      simp [hst, hm]
  | _ => cases hc

theorem LockerInv.served {l : List (ι × Event)} (hi : LockerInv n w l)
    (h : Served i w e r w') : LockerInv n w' (l ++ [(i, ⟨e, r⟩)]) := by
  refine ⟨fun pre x post hl hx y hy => ?_, ?_⟩
  · -- `y` is an event of before, or the one just served
    rcases List.eq_nil_or_concat post with rfl | ⟨post, z, rfl⟩
    · cases hy
    · rw [List.concat_eq_append, ← List.cons_append, ← List.append_assoc] at hl
      obtain ⟨hl, hz⟩ := List.append_inj' hl rfl
      rw [List.concat_eq_append, List.mem_append] at hy
      rcases hy with hy | hy
      · exact hi.1 pre x post hl hx y hy
      · have hst : w.locker.status n = .consumed := hi.2 ⟨x, by simp [hl], hx⟩
        rw [List.mem_singleton] at hy
        rw [hy, ← List.singleton_inj.1 hz]
        exact (served_consumed h hst).1
  · rintro ⟨x, hx, hc⟩
    rw [List.mem_append, List.mem_singleton] at hx
    rcases hx with hx | rfl
    · exact (served_consumed h (hi.2 ⟨x, hx, hc⟩)).2
    · exact served_consumes h hc

end

theorem succeeds_of_consumes {n : Bytes} {x : Event} (h : consumes n x = true) :
    succeeds n x = true := by
  obtain ⟨e, r⟩ := x
  cases e with
  | consume m t =>
    cases r with
    | none => exact h
    | some _ => cases h
  | _ => cases h

theorem LockerInv.unique {n : Bytes} {w : Shared ι} {l : List (ι × Event)} (hi : LockerInv n w l)
    {pre post : List (ι × Event)} {x : ι × Event} (hl : l = pre ++ x :: post)
    (hx : consumes n x.2 = true) : ∀ y ∈ pre ++ post, consumes n y.2 = false := by
  intro y hy
  by_contra hc
  rw [Bool.not_eq_false] at hc
  rcases List.mem_append.1 hy with hy | hy
  · obtain ⟨a, b, rfl⟩ := List.append_of_mem hy
    have hl' : l = a ++ y :: (b ++ x :: post) := by simp [hl]
    have := hi.1 a y _ hl' hc x (by simp)
    simp [succeeds_of_consumes hx] at this
  · have := hi.1 pre x post hl hx y hy
    simp [succeeds_of_consumes hc] at this

theorem LockerInv.consumes_le_one {n : Bytes} {w : Shared ι} {l : List (ι × Event)}
    (hi : LockerInv n w l) : l.countP (fun x => consumes n x.2) ≤ 1 := by
  by_cases h : ∃ x ∈ l, consumes n x.2 = true
  · obtain ⟨x, hx, hc⟩ := h
    obtain ⟨pre, post, hl⟩ := List.append_of_mem hx
    have hzero : (pre ++ post).countP (fun x => consumes n x.2) = 0 :=
      List.countP_eq_zero.2 fun y hy => by simp [hi.unique hl hc y hy]
    rw [List.countP_append] at hzero
    rw [hl, List.countP_append, List.countP_cons, if_pos hc]
    omega
  · rw [List.countP_eq_zero.2 fun x hx hc => h ⟨x, hx, hc⟩]
    omega

/-! ## Runs -/

section
variable [DecidableEq ι] {issuer : ι → Issuer} {clients : ι → Client} {w : Shared ι}
  {s : Pool.State ι Call Call.Reply Unit (Shared ι)}

theorem Reachable.lockerInv (h : Reachable issuer clients w s) (n : Bytes) :
    LockerInv n s.shared s.events := by
  refine Pool.invariant (I := LockerInv n) (fun i w l e r w' hi hs => hi.served hs) ?_ ?_ h
  · rintro w l w' hi ⟨i, d, -, rfl⟩
    exact hi
  · refine ⟨fun pre x post hl => ?_, fun ⟨x, hx, _⟩ => ?_⟩
    · simp [Pool.init] at hl
    · simp [Pool.init] at hx

theorem Reachable.guarded (h : Reachable issuer clients w s) :
    ∀ pre i x post, s.events = pre ++ (i, x) :: post → guard (Pool.own i pre) x.1 :=
  Pool.guarded (G := fun _ => guard) (fun i => (clients i).prog_funded (issuer i)) h

theorem Reachable.funded (h : Reachable issuer clients w s) (n : Bytes) (i : ι) :
    Funded n 0 (Pool.own i s.events) := by
  suffices hpre : ∀ l post, s.events = l ++ post → Funded n 0 (Pool.own i l) from
    hpre s.events [] (by simp)
  intro l
  induction l using List.reverseRecOn with
  | nil => exact fun _ _ => .nil
  | append_singleton l x ih =>
    intro post hl
    obtain ⟨j, x⟩ := x
    rw [List.append_assoc] at hl
    have hfund := ih _ hl
    rw [Pool.own_snoc]
    split
    · rename_i hj
      subst hj
      cases hy : yields n x with
      | false => exact hfund.snoc hy
      | true => exact (h.guarded l j x post (by simpa using hl) n x.2 hy).yield x
    · exact hfund

theorem Reachable.consumed_before (h : Reachable issuer clients w s) {n : Bytes}
    {pre post : List (ι × Event)} {i : ι} {x : Event} (hs : s.events = pre ++ (i, x) :: post)
    (hy : yields n x = true) : ∃ y, (i, y) ∈ pre ∧ consumes n y = true := by
  have hfund : Funded n 1 (Pool.own i pre) := h.guarded pre i x post hs n x.2 hy
  have hpos : 0 < (Pool.own i pre).countP (consumes n) := by
    unfold Funded at hfund
    omega
  obtain ⟨y, hy, hc⟩ := List.countP_pos_iff.1 hpos
  exact ⟨y, Pool.mem_own.1 hy, hc⟩

theorem Reachable.final (h : Reachable issuer clients w s) {n : Bytes}
    {pre post : List (ι × Event)} {x : ι × Event} (hs : s.events = pre ++ x :: post)
    (hy : yields n x.2 = true) : ∀ y ∈ post, succeeds n y.2 = false := by
  obtain ⟨z, hz, hc⟩ := h.consumed_before (i := x.1) (x := x.2) hs hy
  obtain ⟨a, b, rfl⟩ := List.append_of_mem hz
  intro y hy
  refine (h.lockerInv n).1 a (x.1, z) (b ++ x :: post) ?_ hc y (by simp [hy])
  simp [hs]

/-- All yields of a nonce are the work of the client that consumed it. -/
theorem Reachable.yields_le_one (h : Reachable issuer clients w s) (n : Bytes) :
    s.events.countP (fun x => yields n x.2) ≤ 1 := by
  by_cases hex : ∃ x ∈ s.events, yields n x.2 = true
  · obtain ⟨x, hx, hy⟩ := hex
    have honly : ∀ y ∈ s.events, yields n y.2 = true → y.1 = x.1 := by
      intro y hy' hyy
      obtain ⟨a, b, ha⟩ := List.append_of_mem hx
      obtain ⟨a', b', ha'⟩ := List.append_of_mem hy'
      obtain ⟨u, hu, huc⟩ := h.consumed_before (i := x.1) (x := x.2) ha hy
      obtain ⟨v, hv, hvc⟩ := h.consumed_before (i := y.1) (x := y.2) ha' hyy
      obtain ⟨c, d, hc⟩ := List.append_of_mem
        (show (x.1, u) ∈ s.events by rw [ha]; exact List.mem_append_left _ hu)
      have hv' : (y.1, v) ∈ s.events := by rw [ha']; exact List.mem_append_left _ hv
      -- another client's consumption would be a second one
      by_contra hne
      have hmem : (y.1, v) ∈ c ++ d := by
        rw [hc, List.mem_append, List.mem_cons, Prod.mk.injEq] at hv'
        rw [List.mem_append]
        tauto
      have := (h.lockerInv n).unique hc huc _ hmem
      simp [hvc] at this
    calc s.events.countP (fun y => yields n y.2)
        = (Pool.own x.1 s.events).countP (yields n) := by
          rw [Pool.countP_own]
          refine List.countP_congr fun y hy' => ?_
          simpa using fun hyy => honly y hy' hyy
      _ ≤ (Pool.own x.1 s.events).countP (consumes n) := by
          simpa [Funded] using h.funded n x.1
      _ ≤ s.events.countP (fun y => consumes n y.2) := by
          rw [Pool.countP_own]
          exact List.countP_mono_left fun y _ hyc => by simp_all
      _ ≤ 1 := (h.lockerInv n).consumes_le_one
  · rw [List.countP_eq_zero.2 fun x hx hc => hex ⟨x, hx, hc⟩]
    omega

end

/-- **No double spend.** In every state any number of concurrent clients reach, from any locker and
ledger and whatever credits they hold, at most one operation has yielded value for the nonce
bytes `n`, and after it no lock, consume or release of `n` succeeded. -/
theorem no_double_spend [DecidableEq ι] (issuer : ι → Issuer) (clients : ι → Client)
    (w : Shared ι) (s : Pool.State ι Call Call.Reply Unit (Shared ι))
    (h : Reachable issuer clients w s) (n : Bytes) :
    s.events.countP (fun x => yields n x.2) ≤ 1 ∧
      ∀ pre x post, s.events = pre ++ x :: post → yields n x.2 = true →
        ∀ y ∈ post, succeeds n y.2 = false :=
  ⟨h.yields_le_one n, fun _ _ _ hs hy => h.final hs hy⟩

/-- Two clients hold one credit: the second finds it locked, the first exchanges it. -/
theorem no_double_spend_contended :
    let n : Nonce := ⟨0, List.replicate 16 7, false⟩
    let credit : BlindedCredit := ⟨⟨false, 5, by decide⟩, n, []⟩
    let clients : Bool → Client := fun i =>
      if i then .exchange (.blinded credit) ⟨credit.value, []⟩ else .deposit [] credit
    ∃ s, Reachable (fun _ => ⟨.accepting⟩) clients ⟨.new, .new, fun _ => none⟩ s ∧
      s.events.length = 4 ∧ s.events.countP (fun x => yields n.nonce x.2) = 1 ∧
      ∀ pre x post, s.events = pre ++ x :: post → yields n.nonce x.2 = true →
        ∀ y ∈ post, succeeds n.nonce y.2 = false := by
  intro n credit clients
  have hreach := reachable_play (fun _ => ⟨.accepting⟩) clients ⟨.new, .new, fun _ => none⟩ 0
    (.ok (Vector.replicate 8 1)) [true, false, true, true]
  refine ⟨_, hreach, by decide, by decide, ?_⟩
  exact (no_double_spend _ clients _ _ hreach n.nonce).2

end Anonpay
