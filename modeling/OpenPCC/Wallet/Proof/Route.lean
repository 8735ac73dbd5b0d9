import Mathlib.Tactic.Abel
import OpenPCC.Lib.Bag
import OpenPCC.Wallet.Route

/-!
# No account is lost on its way

* `Base`: the account of the accounts, what the variables of `RouteAccounts` say about its inputs,
  and when `withdrawableAccounts` is closed. `Busy`: a step that has not returned has an input left.
* `Base.again`, `Base.finish`: the end of an iteration and of the step keep them.
* `Inv.step`: every act does.
* `Inv.progresses`, `Inv.weight_lt`: the steps wait only for open inputs and for the receivers of
  their outputs, and return.
-/

namespace Wallet

open Go

variable {α : Type}

/-- The step has returned with an error. -/
def RoutePc.failed : RoutePc α → Nat
  | .returned (some _) => 1
  | _ => 0

@[inherit_doc RoutePc.failed]
def ExitPc.failed : ExitPc α → Nat
  | .returned (some _) => 1
  | _ => 0

namespace Route

variable {r r' : Route α}

/-! ## The invariant -/

structure Base (r : Route α) : Prop where
  crashed : r.crashed = false
  kept : (r.offered : Multiset α) =
    (r.inputAccounts.offers + r.fullAccountsFromSource.offers + r.hands : Multiset α) +
      (r.toWithdraw + r.toSource + r.dropped : Multiset α)
  full : ∀ acc ∈ r.toWithdraw, r.sourceAmount ≤ r.balance acc
  fullHand : ∀ acc, r.exit = .sending acc → r.sourceAmount ≤ r.balance acc
  closed : r.withdrawableClosed = true ↔ r.closeSignal = false ∨ ∃ err, r.router = .returned err
  signal : r.closeSignal = false → r.inputSignal.closed = true
  priority : r.priority = false → r.inputAccounts.closed = true ∧ r.inputAccounts.offers = []
  fallback : r.fallback = false →
    r.fullAccountsFromSource.closed = true ∧ r.fullAccountsFromSource.offers = []
  returned : r.router = .returned none →
    r.closeSignal = false ∧ r.priority = false ∧ r.fallback = false
  exitReturned : r.exit = .returned none → r.withdrawableClosed = true
  routerErr : ∀ err, r.router = .returned (some err) → r.ctxErr.isSome = true
  exitErr : ∀ err, r.exit = .returned (some err) → r.ctxErr.isSome = true
  dropped : r.dropped.length ≤ r.router.failed + r.exit.failed

/-- Until the step returns, one of the three channels is not nil. -/
def Busy (r : Route α) : Prop :=
  (∀ err, r.router ≠ .returned err) →
    r.closeSignal = true ∨ r.priority = true ∨ r.fallback = true

structure Inv (r : Route α) : Prop extends Base r where
  busy : r.Busy

/-! ## The end of an iteration -/

theorem router_of_selects (h : r.selects = true) :
    r.router = .selecting ∨ r.router = .selectingAll := by
  unfold selects at h
  split at h
  · exact .inl ‹_›
  · exact .inr ‹_›
  · cases h

theorem not_returned_of_selects (h : r.selects = true) : ∀ err, r.router ≠ .returned err := by
  intro err
  rcases router_of_selects h with hr | hr
  · rw [hr]
    nofun
  · rw [hr]
    nofun

theorem hand_of_selects (h : r.selects = true) : r.router.hand = [] ∧ r.router.failed = 0 := by
  rcases router_of_selects h with hr | hr
  · rw [hr]
    exact ⟨rfl, rfl⟩
  · rw [hr]
    exact ⟨rfl, rfl⟩

theorem Base.open_of_closeSignal (h : Base r) (hsignal : r.closeSignal = true)
    (hrun : ∀ err, r.router ≠ .returned err) : r.withdrawableClosed = false := by
  cases hclosed : r.withdrawableClosed with
  | false => rfl
  | true =>
    rcases h.closed.1 hclosed with hnil | ⟨err, herr⟩
    · rw [hsignal] at hnil
      cases hnil
    · exact absurd herr (hrun err)

/-- The step goes on from one place to another. -/
theorem Base.closed_of_running (h : Base r) (hrun : ∀ err, r.router ≠ .returned err)
    {pc : RoutePc α} (hpc : ∀ err, pc ≠ .returned err) :
    r.withdrawableClosed = true ↔ r.closeSignal = false ∨ ∃ err, pc = .returned err :=
  h.closed.trans
    ⟨fun hor => .inl (hor.resolve_right fun ⟨err, herr⟩ => hrun err herr),
      fun hor => .inl (hor.resolve_right fun ⟨err, herr⟩ => hpc err herr)⟩

theorem finish_of_nil (h : r.closeSignal = false) (err : Option Err) :
    r.finish err = { r with router := .returned err } := by
  unfold finish
  exact if_neg (by simp [h])

theorem finish_of_open (h : r.closeSignal = true) (hopen : r.withdrawableClosed = false)
    (err : Option Err) :
    r.finish err = { r with router := .returned err, withdrawableClosed := true } := by
  unfold finish closeWithdrawable
  simp only [h, if_true, hopen, Bool.false_eq_true, if_false]

/-- The iteration ends without an account, from a `select`. -/
theorem Base.again (h : Base r) (hsel : r.selects = true) : Inv r.again := by
  obtain ⟨hhand, hfailed⟩ := hand_of_selects hsel
  have hkept := h.kept
  have hdropped := h.dropped
  rw [hands, hhand] at hkept
  rw [hfailed] at hdropped
  unfold Route.again
  split
  · next hall =>
    rw [finish_of_nil hall.1]
    exact
      { h with
        kept := hkept
        closed := h.closed.trans ⟨fun _ => .inl hall.1, fun _ => .inl hall.1⟩
        returned := fun _ => hall
        routerErr := nofun
        dropped := hdropped
        busy := fun hnot => absurd rfl (hnot none) }
  · next hnot =>
    have hrun := not_returned_of_selects hsel
    exact
      { h with
        kept := hkept
        closed := h.closed_of_running hrun nofun
        returned := nofun
        routerErr := nofun
        dropped := hdropped
        busy := fun _ => by
          by_contra hno
          simp only [not_or, Bool.not_eq_true] at hno
          exact hnot hno }

/-- The step returns since the context is done. What it had in its hands is dropped. -/
theorem Base.finish (h : Base r) (hrun : ∀ err, r.router ≠ .returned err) (err : Err)
    (hctx : r.ctxErr.isSome = true) :
    Inv ({ r with dropped := r.dropped ++ r.router.hand }.finish (some err)) := by
  have hkept : (r.offered : Multiset α) =
      (r.inputAccounts.offers + r.fullAccountsFromSource.offers + r.exit.hand : Multiset α) +
        (r.toWithdraw + r.toSource + (r.dropped ++ r.router.hand : List α) : Multiset α) := by
    have hkept := h.kept
    rw [hands, ← Multiset.coe_add] at hkept
    rw [hkept, ← Multiset.coe_add]
    abel
  have hlen : r.router.hand.length ≤ 1 := by
    cases r.router <;> simp [RoutePc.hand]
  have hdropped : (r.dropped ++ r.router.hand).length ≤ 1 + r.exit.failed := by
    have hdropped := h.dropped
    have hfailed : r.router.failed = 0 := by
      cases hr : r.router with
      | returned err => exact absurd hr (hrun err)
      | _ => rfl
    rw [List.length_append]
    omega
  rcases Bool.eq_false_or_eq_true r.closeSignal with hsignal | hsignal
  · rw [finish_of_open (r := { r with dropped := r.dropped ++ r.router.hand }) hsignal
      (h.open_of_closeSignal hsignal hrun)]
    exact
      { h with
        kept := hkept
        closed := ⟨fun _ => .inr ⟨_, rfl⟩, fun _ => rfl⟩
        returned := nofun
        exitReturned := fun _ => rfl
        routerErr := fun _ _ => hctx
        dropped := hdropped
        busy := fun hnot => absurd rfl (hnot _) }
  · rw [finish_of_nil (r := { r with dropped := r.dropped ++ r.router.hand }) hsignal]
    exact
      { h with
        kept := hkept
        closed := h.closed.trans ⟨fun _ => .inl hsignal, fun _ => .inl hsignal⟩
        returned := nofun
        routerErr := fun _ _ => hctx
        dropped := hdropped
        busy := fun hnot => absurd rfl (hnot _) }

/-! ## Acts of the outside -/

theorem Inv.outerStep (h : Inv r) {a : RouteAct α} (hstep : r.outerStep a = some r') : Inv r' := by
  have hkept := h.kept
  cases a <;>
    simp only [Route.outerStep, Option.ite_none_left_eq_some, Option.some.injEq, reduceCtorEq]
      at hstep
  case signal =>
    obtain ⟨-, rfl⟩ := hstep
    exact { h with }
  case closeSignal =>
    obtain ⟨-, rfl⟩ := hstep
    exact { h with signal := fun _ => rfl }
  case offerPriority acc =>
    obtain ⟨hopen, rfl⟩ := hstep
    exact
      { h with
        kept := by
          simp only [hands, Bag.coe_append_singleton] at hkept ⊢
          rw [hkept]
          abel
        priority := fun hnil => absurd (h.priority hnil).1 hopen }
  case closePriority =>
    obtain ⟨-, rfl⟩ := hstep
    exact { h with priority := fun hnil => ⟨rfl, (h.priority hnil).2⟩ }
  case offerFallback acc =>
    obtain ⟨hopen, rfl⟩ := hstep
    exact
      { h with
        kept := by
          simp only [hands, Bag.coe_append_singleton] at hkept ⊢
          rw [hkept]
          abel
        fallback := fun hnil => absurd (h.fallback hnil).1 hopen }
  case closeFallback =>
    obtain ⟨-, rfl⟩ := hstep
    exact { h with fallback := fun hnil => ⟨rfl, (h.fallback hnil).2⟩ }
  case cancel err =>
    obtain ⟨-, rfl⟩ := hstep
    exact { h with routerErr := fun _ _ => rfl, exitErr := fun _ _ => rfl }

/-! ## Acts of `RouteAccounts` -/

theorem Inv.goOn (h : Inv r) (hrun : ∀ err, r.router ≠ .returned err) {pc : RoutePc α}
    (hpc : ∀ err, pc ≠ .returned err) (hhand : pc.hand = r.router.hand)
    (hfailed : pc.failed = r.router.failed) : Inv { r with router := pc } :=
  { h with
    kept := by
      rw [hands, hhand]
      exact h.kept
    closed := h.closed_of_running hrun hpc
    returned := fun hr => absurd hr (hpc none)
    routerErr := fun err herr => absurd herr (hpc (some err))
    dropped := by
      rw [hfailed]
      exact h.dropped
    busy := fun _ => h.busy hrun }

theorem Inv.receiveSignal (h : Inv r) (hsel : r.selects = true)
    (hstep : r.receiveSignal = some r') : Inv r' := by
  obtain ⟨hhand, hfailed⟩ := hand_of_selects hsel
  have hrun := not_returned_of_selects hsel
  simp only [Route.receiveSignal] at hstep
  split at hstep
  · cases hstep
    have hgo : Inv { r with router := .selecting } :=
      h.goOn hrun nofun hhand.symm hfailed.symm
    exact { hgo with }
  · next hsignal hoffers hclosed =>
    cases hstep
    have hopen := h.open_of_closeSignal hsignal hrun
    have hclose : r.closeWithdrawable = { r with withdrawableClosed := true } := by
      unfold closeWithdrawable
      exact if_neg (by simp [hopen])
    rw [hclose]
    refine Base.again (r := { r with withdrawableClosed := true, closeSignal := false }) ?_ hsel
    exact
      { h.toBase with
        closed := ⟨fun _ => .inl rfl, fun _ => rfl⟩
        signal := fun _ => hclosed
        returned := fun hr => absurd hr (hrun none)
        exitReturned := fun _ => rfl }
  · cases hstep

theorem Inv.receive (h : Inv r) (hsel : r.selects = true) {acc : α} {accounts full : Input α}
    (hoffers : (r.inputAccounts.offers + r.fullAccountsFromSource.offers : Multiset α) =
      {acc} + (accounts.offers + full.offers : Multiset α))
    (hpriority : r.priority = false → accounts.closed = true ∧ accounts.offers = [])
    (hfallback : r.fallback = false → full.closed = true ∧ full.offers = [])
    (hbusy : r.priority = true ∨ r.fallback = true) :
    Inv { r with
      inputAccounts := accounts, fullAccountsFromSource := full, router := .sending acc } := by
  obtain ⟨hhand, hfailed⟩ := hand_of_selects hsel
  have hkept := h.kept
  have hdropped := h.dropped
  rw [hfailed] at hdropped
  exact
    { h with
      kept := by
        rw [hands, hhand, hoffers] at hkept
        rw [hkept, hands, RoutePc.hand, ← Multiset.coe_add, ← Multiset.coe_add,
          Multiset.coe_singleton, Multiset.coe_nil]
        abel
      closed := h.closed_of_running (not_returned_of_selects hsel) nofun
      priority := hpriority
      fallback := hfallback
      returned := nofun
      routerErr := nofun
      dropped := hdropped
      busy := fun _ => .inr hbusy }

theorem Inv.receivePriority (h : Inv r) (hsel : r.selects = true)
    (hstep : r.receivePriority = some r') : Inv r' := by
  simp only [Route.receivePriority] at hstep
  split at hstep
  · next acc offers _ hpriority hoffers =>
    cases hstep
    refine h.receive hsel ?_
      (fun hnil => absurd (hpriority.symm.trans hnil) (by decide)) h.fallback (.inl hpriority)
    rw [hoffers, ← Multiset.cons_coe, ← Multiset.singleton_add, add_assoc]
  · next hpriority hoffers hclosed =>
    cases hstep
    refine Base.again (r := { r with priority := false }) ?_ hsel
    exact
      { h.toBase with
        priority := fun _ => ⟨hclosed, hoffers⟩
        returned := fun hr => absurd hr (not_returned_of_selects hsel none) }
  · cases hstep

theorem Inv.receiveFallback (h : Inv r) (hsel : r.selects = true)
    (hstep : r.receiveFallback = some r') : Inv r' := by
  simp only [Route.receiveFallback] at hstep
  split at hstep
  · next acc offers _ hfallback hoffers =>
    cases hstep
    refine h.receive hsel ?_ h.priority
      (fun hnil => absurd (hfallback.symm.trans hnil) (by decide)) (.inr hfallback)
    rw [hoffers, ← Multiset.cons_coe, ← Multiset.singleton_add, add_left_comm]
  · next hfallback hoffers hclosed =>
    cases hstep
    refine Base.again (r := { r with fallback := false }) ?_ hsel
    exact
      { h.toBase with
        fallback := fun _ => ⟨hclosed, hoffers⟩
        returned := fun hr => absurd hr (not_returned_of_selects hsel none) }
  · cases hstep

theorem Inv.routerStep (h : Inv r) {a : RouteAct α} (hstep : r.routerStep a = some r') :
    Inv r' := by
  have hkept := h.kept
  cases a with
  | ctxDone =>
    obtain ⟨hdone, hstep⟩ := Option.ite_none_right_eq_some.1 hstep
    cases hstep
    obtain ⟨err, herr⟩ := Option.isSome_iff_exists.1 hdone.2
    have hfinish := h.toBase.finish (not_returned_of_selects hdone.1) err hdone.2
    rw [(hand_of_selects hdone.1).1, List.append_nil] at hfinish
    rw [herr]
    exact hfinish
  | receiveSignal =>
    obtain ⟨hsel, hstep⟩ := Option.ite_none_right_eq_some.1 hstep
    exact h.receiveSignal hsel hstep
  | receivePriority =>
    obtain ⟨hsel, hstep⟩ := Option.ite_none_right_eq_some.1 hstep
    exact h.receivePriority hsel hstep
  | noneReady =>
    simp only [Route.routerStep] at hstep
    split at hstep
    · next hrouter =>
      split at hstep
      · cases hstep
      · cases hstep
        refine h.goOn ?_ nofun (by rw [hrouter]; rfl) (by rw [hrouter]; rfl)
        rw [hrouter]
        nofun
    · cases hstep
  | receiveFallback =>
    simp only [Route.routerStep] at hstep
    split at hstep
    · next hrouter => exact h.receiveFallback (by rw [selects, hrouter]) hstep
    · cases hstep
  | sendToSource =>
    simp only [Route.routerStep] at hstep
    split at hstep
    · next acc hrouter =>
      split at hstep
      · cases hstep
        have hrun : ∀ err, r.router ≠ .returned err := by
          rw [hrouter]
          nofun
        have hdropped := h.dropped
        have hbusy := h.busy hrun
        rw [hrouter] at hdropped
        exact
          { h with
            kept := by
              simp only [hands, hrouter, RoutePc.hand, ← Multiset.coe_add, Multiset.coe_singleton,
                Multiset.coe_nil] at hkept ⊢
              rw [hkept]
              abel
            closed := h.closed_of_running hrun nofun
            returned := nofun
            routerErr := nofun
            dropped := hdropped
            busy := fun _ => hbusy }
      · cases hstep
    · cases hstep
  | sendWithdrawable =>
    simp only [Route.routerStep] at hstep
    split at hstep
    · next acc hrouter hexit =>
      have hrun : ∀ err, r.router ≠ .returned err := by
        rw [hrouter]
        nofun
      split at hstep
      · cases hstep
      · next hfull =>
        -- the account is full and `closeSignal` is set, so the channel is open
        simp only [returnsToSource, Bool.or_eq_true, Bool.not_eq_true', decide_eq_true_eq, not_or,
          Bool.not_eq_false, not_lt] at hfull
        have hopen := h.open_of_closeSignal hfull.1 hrun
        rw [if_neg (by rw [hopen]; decide)] at hstep
        cases hstep
        have hdropped := h.dropped
        rw [hrouter, hexit] at hdropped
        exact
          { h with
            kept := by
              simp only [hands, hrouter, hexit, RoutePc.hand, ExitPc.hand, List.append_nil,
                List.nil_append] at hkept ⊢
              exact hkept
            fullHand := fun acc' hacc => by
              cases hacc
              exact hfull.2
            closed := h.closed_of_running hrun nofun
            returned := nofun
            exitReturned := nofun
            routerErr := nofun
            exitErr := nofun
            dropped := hdropped
            busy := fun _ => .inl hfull.1 }
    · cases hstep
  | sendCtxDone =>
    simp only [Route.routerStep] at hstep
    split at hstep
    · next acc err hrouter hctx =>
      cases hstep
      have hrun : ∀ err, r.router ≠ .returned err := by
        rw [hrouter]
        nofun
      have hfinish := h.toBase.finish hrun
        (.errorf "failed to send output: %w" [] err) (by rw [hctx]; rfl)
      rw [hrouter] at hfinish
      exact hfinish
    · cases hstep
  | _ => cases hstep

/-! ## Acts of `EarlyExitFullAcountsToWithdraw` -/

theorem Inv.exitStep (h : Inv r) {a : RouteAct α} (hstep : r.exitStep a = some r') : Inv r' := by
  have hkept := h.kept
  have hdropped := h.dropped
  cases a with
  | exitClosed =>
    simp only [Route.exitStep] at hstep
    split at hstep
    · next hexit =>
      split at hstep
      · next hclosed =>
        cases hstep
        rw [hands, hexit] at hkept
        rw [hexit] at hdropped
        exact
          { h with
            kept := hkept
            fullHand := nofun
            exitReturned := fun _ => hclosed
            exitErr := nofun
            dropped := hdropped }
      · cases hstep
    · cases hstep
  | exitCtxDone =>
    simp only [Route.exitStep] at hstep
    split at hstep
    · next err hexit hctx =>
      cases hstep
      rw [hands, hexit] at hkept
      rw [hexit] at hdropped
      exact
        { h with
          kept := hkept
          fullHand := nofun
          exitReturned := nofun
          exitErr := fun _ _ => by rw [hctx]; rfl
          dropped := hdropped.trans (Nat.le_succ _) }
    · cases hstep
  | exitSend =>
    simp only [Route.exitStep] at hstep
    split at hstep
    · next acc hexit =>
      cases hstep
      rw [hexit] at hdropped
      exact
        { h with
          kept := by
            simp only [hands, hexit, ExitPc.hand, ← Multiset.coe_add, Multiset.coe_singleton,
              Multiset.coe_nil] at hkept ⊢
            rw [hkept]
            abel
          full := fun acc' hacc => by
            rcases List.mem_append.1 hacc with hacc | hacc
            · exact h.full acc' hacc
            · cases List.mem_singleton.1 hacc
              exact h.fullHand acc hexit
          fullHand := nofun
          exitReturned := nofun
          exitErr := nofun
          dropped := hdropped }
    · cases hstep
  | exitSendCtxDone =>
    simp only [Route.exitStep] at hstep
    split at hstep
    · next acc err hexit hctx =>
      cases hstep
      rw [hexit] at hdropped
      exact
        { h with
          kept := by
            simp only [hands, hexit, ExitPc.hand, ← Multiset.coe_add, Multiset.coe_singleton,
              Multiset.coe_nil] at hkept ⊢
            rw [hkept]
            abel
          fullHand := nofun
          exitReturned := nofun
          exitErr := fun _ _ => by rw [hctx]; rfl
          dropped := by
            rw [List.length_append]
            exact Nat.succ_le_succ hdropped }
    · cases hstep
  | _ => cases hstep

theorem step_cases {a : RouteAct α} (h : r.step a = some r') :
    r.outerStep a = some r' ∨ r.routerStep a = some r' ∨ r.exitStep a = some r' := by
  unfold step at h
  split at h
  · cases h
  · cases houter : r.outerStep a with
    | some x =>
      rw [houter] at h
      exact .inl h
    | none =>
      cases hrouter : r.routerStep a with
      | some x =>
        rw [houter, hrouter] at h
        exact .inr (.inl h)
      | none =>
        rw [houter, hrouter] at h
        exact .inr (.inr h)

theorem Inv.step (h : Inv r) {a : RouteAct α} (hstep : r.step a = some r') : Inv r' := by
  rcases step_cases hstep with hstep | hstep | hstep
  · exact h.outerStep hstep
  · exact h.routerStep hstep
  · exact h.exitStep hstep

theorem Inv.safe (h : Inv r) : r.Safe := by
  refine ⟨h.crashed, h.kept, h.full, ⟨?_, fun hctx => ?_⟩, fun ⟨hrouter, hexit⟩ => ?_⟩
  · have hrouter : r.router.failed ≤ 1 := by
      unfold RoutePc.failed
      split <;> omega
    have hexit : r.exit.failed ≤ 1 := by
      unfold ExitPc.failed
      split <;> omega
    exact h.dropped.trans (by omega)
  · have hrouter : r.router.failed = 0 := by
      unfold RoutePc.failed
      split
      · next err herr =>
        have hsome := h.routerErr err herr
        rw [hctx] at hsome
        cases hsome
      · rfl
    have hexit : r.exit.failed = 0 := by
      unfold ExitPc.failed
      split
      · next err herr =>
        have hsome := h.exitErr err herr
        rw [hctx] at hsome
        cases hsome
      · rfl
    have hlen := h.dropped
    rw [hrouter, hexit] at hlen
    exact List.eq_nil_of_length_eq_zero (Nat.le_zero.1 hlen)
  · obtain ⟨-, hpriority, hfallback⟩ := h.returned hrouter
    obtain ⟨hclosed, hoffers⟩ := h.priority hpriority
    obtain ⟨hclosed', hoffers'⟩ := h.fallback hfallback
    have hlen := h.dropped
    have hkept := h.kept
    rw [hrouter, hexit] at hlen
    have hdropped : r.dropped = [] := List.eq_nil_of_length_eq_zero (Nat.le_zero.1 hlen)
    simp only [hands, hrouter, hexit, hoffers, hoffers', hdropped, RoutePc.hand, ExitPc.hand,
      List.append_nil, Multiset.coe_nil, zero_add, add_zero] at hkept
    exact ⟨hkept, hclosed, hclosed'⟩

/-! ## Progress -/

theorem enabled_of_routerStep (hc : r.crashed = false) {a : RouteAct α}
    (h : (r.routerStep a).isSome = true) : r.Enabled a := by
  obtain ⟨x, hx⟩ := Option.isSome_iff_exists.1 h
  unfold Enabled step
  rw [if_neg (by rw [hc]; decide), hx]
  cases r.outerStep a <;> rfl

theorem enabled_of_exitStep (hc : r.crashed = false) {a : RouteAct α}
    (h : (r.exitStep a).isSome = true) : r.Enabled a := by
  obtain ⟨x, hx⟩ := Option.isSome_iff_exists.1 h
  unfold Enabled step
  rw [if_neg (by rw [hc]; decide), hx]
  cases r.outerStep a <;> cases r.routerStep a <;> rfl

theorem isSome_receiveSignal (h : r.closeSignal = true) (hclosed : r.inputSignal.closed = true) :
    r.receiveSignal.isSome = true := by
  unfold Route.receiveSignal
  rw [h, hclosed]
  cases r.inputSignal.offers <;> rfl

theorem isSome_receivePriority (h : r.priority = true)
    (hclosed : r.inputAccounts.closed = true) : r.receivePriority.isSome = true := by
  unfold Route.receivePriority
  rw [h, hclosed]
  cases r.inputAccounts.offers <;> rfl

theorem isSome_receiveFallback (h : r.fallback = true)
    (hclosed : r.fullAccountsFromSource.closed = true) : r.receiveFallback.isSome = true := by
  unfold Route.receiveFallback
  rw [h, hclosed]
  cases r.fullAccountsFromSource.offers <;> rfl

/-- In a `select` with all inputs closed, one of the cases is ready. -/
theorem Inv.select_enabled (h : Inv r) (hsel : r.selects = true) (hctx : r.ctxErr = none)
    (hsignal : r.inputSignal.closed = true) (hpriority : r.inputAccounts.closed = true)
    (hfallback : r.fullAccountsFromSource.closed = true) :
    ∃ a : RouteAct α, a.isInner = true ∧ a.isOutput = false ∧ r.Enabled a := by
  have hbusy := h.busy (not_returned_of_selects hsel)
  rcases Bool.eq_false_or_eq_true r.closeSignal with hs | hs
  · refine ⟨.receiveSignal, rfl, rfl, enabled_of_routerStep h.crashed ?_⟩
    rw [Route.routerStep, if_pos hsel]
    exact isSome_receiveSignal hs hsignal
  rcases Bool.eq_false_or_eq_true r.priority with hp | hp
  · refine ⟨.receivePriority, rfl, rfl, enabled_of_routerStep h.crashed ?_⟩
    rw [Route.routerStep, if_pos hsel]
    exact isSome_receivePriority hp hpriority
  have hf : r.fallback = true := by simpa [hs, hp] using hbusy
  rcases router_of_selects hsel with hr | hr
  · refine ⟨.noneReady, rfl, rfl, enabled_of_routerStep h.crashed ?_⟩
    simp [Route.routerStep, hr, hs, hp, hctx]
  · refine ⟨.receiveFallback, rfl, rfl, enabled_of_routerStep h.crashed ?_⟩
    simp only [Route.routerStep, hr]
    exact isSome_receiveFallback hf hfallback

theorem Inv.send_enabled (h : Inv r) {acc : α} (hrouter : r.router = .sending acc)
    (hto : r.returnsToSource acc = false) (hexit : ∀ acc, r.exit ≠ .sending acc) :
    ∃ a : RouteAct α, a.isInner = true ∧ a.isOutput = false ∧ r.Enabled a := by
  cases he : r.exit with
  | sending acc' => exact absurd he (hexit acc')
  | receiving =>
    refine ⟨.sendWithdrawable, rfl, rfl, enabled_of_routerStep h.crashed ?_⟩
    simp only [Route.routerStep, hrouter, he, hto, Bool.false_eq_true, if_false]
    split <;> rfl
  | returned err =>
    cases err with
    | none =>
      -- the other step has seen the channel closed, so the account goes to the source
      rcases h.closed.1 (h.exitReturned he) with hs | ⟨err, herr⟩
      · simp [returnsToSource, hs] at hto
      · rw [hrouter] at herr
        cases herr
    | some err =>
      obtain ⟨e, hctx⟩ := Option.isSome_iff_exists.1 (h.exitErr err he)
      refine ⟨.sendCtxDone, rfl, rfl, enabled_of_routerStep h.crashed ?_⟩
      simp [Route.routerStep, hrouter, hctx]

theorem Inv.ctxErr_of_stuck (h : Inv r)
    (hno : ¬ ∃ a : RouteAct α, a.isInner = true ∧ a.isOutput = false ∧ r.Enabled a)
    (hwaits : r.selects = true ∨ r.Sends) : r.ctxErr = none := by
  cases hctx : r.ctxErr with
  | none => rfl
  | some err =>
    obtain hsel | ⟨acc, hrouter, -⟩ | ⟨acc, hexit⟩ := hwaits
    · refine absurd ⟨.ctxDone, rfl, rfl, enabled_of_routerStep h.crashed ?_⟩ hno
      simp [Route.routerStep, hsel, hctx]
    · refine absurd ⟨.sendCtxDone, rfl, rfl, enabled_of_routerStep h.crashed ?_⟩ hno
      simp [Route.routerStep, hrouter, hctx]
    · refine absurd ⟨.exitSendCtxDone, rfl, rfl, enabled_of_exitStep h.crashed ?_⟩ hno
      simp [Route.exitStep, hexit, hctx]

theorem Inv.progresses (h : Inv r) : r.Progresses := by
  intro hstuck
  have hno : ¬ ∃ a : RouteAct α, a.isInner = true ∧ a.isOutput = false ∧ r.Enabled a :=
    fun ⟨a, hinner, houtput, ha⟩ => hstuck a hinner houtput ha
  by_cases hsends : r.Sends
  · exact .inr ⟨h.ctxErr_of_stuck hno (.inr hsends), .inr (.inr (.inr hsends))⟩
  obtain ⟨hsource, hexit⟩ := not_or.1 hsends
  rw [not_exists] at hsource hexit
  cases hrouter : r.router with
  | sending acc =>
    have hto : r.returnsToSource acc = false := by simpa [hrouter] using hsource acc
    exact absurd (h.send_enabled hrouter hto hexit) hno
  | returned err =>
    refine .inl ⟨⟨err, rfl⟩, ?_⟩
    cases he : r.exit with
    | sending acc => exact absurd he (hexit acc)
    | returned err' => exact ⟨err', rfl⟩
    | receiving =>
      refine absurd ⟨.exitClosed, rfl, rfl, enabled_of_exitStep h.crashed ?_⟩ hno
      simp [Route.exitStep, he, h.closed.2 (.inr ⟨err, hrouter⟩)]
  | selecting | selectingAll =>
    have hsel : r.selects = true := by rw [selects, hrouter]
    have hctx := h.ctxErr_of_stuck hno (.inl hsel)
    refine .inr ⟨hctx, ?_⟩
    by_contra hopen
    simp only [not_or, Bool.not_eq_false] at hopen
    exact hno (h.select_enabled hsel hctx hopen.1 hopen.2.1 hopen.2.2.1)

/-! ## Termination -/

theorem weight_selecting : (RoutePc.selecting : RoutePc α).weight = 2 := rfl

theorem weight_selectingAll : (RoutePc.selectingAll : RoutePc α).weight = 1 := rfl

theorem weight_sending (acc : α) : (RoutePc.sending acc).weight = 5 := rfl

theorem weight_returned (err : Option Err) : (RoutePc.returned err : RoutePc α).weight = 0 := rfl

theorem weight_finish (r : Route α) (err : Option Err) :
    (r.finish err).weight + r.router.weight = r.weight := by
  have hweight : ∀ r : Route α, r.closeWithdrawable.weight = r.weight := by
    intro r
    unfold closeWithdrawable
    split <;> rfl
  have hreturned : ({ r with router := .returned err } : Route α).weight + r.router.weight =
      r.weight := by
    simp only [weight, weight_returned]
    omega
  unfold finish
  simp only
  split
  · rw [hweight]
    exact hreturned
  · exact hreturned

theorem weight_again_le (r : Route α) : r.again.weight + r.router.weight ≤ r.weight + 2 := by
  unfold Route.again
  split
  · have hfinish := weight_finish r none
    omega
  · simp only [weight, weight_selecting]
    omega

theorem weight_of_selects (hsel : r.selects = true) : 1 ≤ r.router.weight := by
  rcases router_of_selects hsel with hr | hr
  · rw [hr, weight_selecting]
    omega
  · rw [hr, weight_selectingAll]

theorem again_lt {r₀ : Route α} (hsel : r.selects = true) (hpc : r₀.router = r.router)
    (hnil : r₀.weight + 2 = r.weight) : r₀.again.weight < r.weight := by
  have hrouter := weight_of_selects hsel
  have hagain := weight_again_le r₀
  rw [hpc] at hagain
  omega

theorem receiveSignal_lt (hsel : r.selects = true) (hstep : r.receiveSignal = some r') :
    r'.weight < r.weight := by
  have hrouter := weight_of_selects hsel
  simp only [Route.receiveSignal] at hstep
  split at hstep
  · next hsignal hoffers =>
    cases hstep
    simp only [weight, hoffers, List.length_cons, weight_selecting]
    omega
  · next hsignal hoffers hclosed =>
    cases hstep
    refine again_lt hsel ?_ ?_
    · unfold closeWithdrawable
      split <;> rfl
    · unfold closeWithdrawable
      split
      · simp only [weight, hsignal, Bool.toNat_true, Bool.toNat_false]
        omega
      · simp only [weight, hsignal, Bool.toNat_true, Bool.toNat_false]
        omega
  · cases hstep

theorem receivePriority_lt (hsel : r.selects = true) (hstep : r.receivePriority = some r') :
    r'.weight < r.weight := by
  have hrouter := weight_of_selects hsel
  simp only [Route.receivePriority] at hstep
  split at hstep
  · next hpriority hoffers =>
    cases hstep
    simp only [weight, hoffers, List.length_cons, weight_sending]
    omega
  · next hpriority hoffers hclosed =>
    cases hstep
    refine again_lt hsel rfl ?_
    simp only [weight, hpriority, Bool.toNat_true, Bool.toNat_false]
    omega
  · cases hstep

theorem receiveFallback_lt (hsel : r.selects = true) (hstep : r.receiveFallback = some r') :
    r'.weight < r.weight := by
  have hrouter := weight_of_selects hsel
  simp only [Route.receiveFallback] at hstep
  split at hstep
  · next hfallback hoffers =>
    cases hstep
    simp only [weight, hoffers, List.length_cons, weight_sending]
    omega
  · next hfallback hoffers hclosed =>
    cases hstep
    refine again_lt hsel rfl ?_
    simp only [weight, hfallback, Bool.toNat_true, Bool.toNat_false]
    omega
  · cases hstep

theorem routerStep_lt (hcrashed : r'.crashed = false) {a : RouteAct α}
    (hstep : r.routerStep a = some r') : r'.weight < r.weight := by
  cases a with
  | ctxDone =>
    obtain ⟨hdone, hstep⟩ := Option.ite_none_right_eq_some.1 hstep
    cases hstep
    have hfinish := weight_finish r r.ctxErr
    have hrouter := weight_of_selects hdone.1
    omega
  | receiveSignal =>
    obtain ⟨hsel, hstep⟩ := Option.ite_none_right_eq_some.1 hstep
    exact receiveSignal_lt hsel hstep
  | receivePriority =>
    obtain ⟨hsel, hstep⟩ := Option.ite_none_right_eq_some.1 hstep
    exact receivePriority_lt hsel hstep
  | noneReady =>
    simp only [Route.routerStep] at hstep
    split at hstep
    · next hrouter =>
      split at hstep
      · cases hstep
      · cases hstep
        simp only [weight, hrouter, weight_selecting, weight_selectingAll]
        omega
    · cases hstep
  | receiveFallback =>
    simp only [Route.routerStep] at hstep
    split at hstep
    · next hrouter => exact receiveFallback_lt (by rw [selects, hrouter]) hstep
    · cases hstep
  | sendToSource =>
    simp only [Route.routerStep] at hstep
    split at hstep
    · next acc hrouter =>
      split at hstep
      · cases hstep
        simp only [weight, hrouter, weight_selecting, weight_sending]
        omega
      · cases hstep
    · cases hstep
  | sendWithdrawable =>
    simp only [Route.routerStep] at hstep
    split at hstep
    · next acc hrouter hexit =>
      split at hstep
      · cases hstep
      · split at hstep
        · cases hstep
          cases hcrashed
        · cases hstep
          simp only [weight, hrouter, hexit, weight_selecting, weight_sending, ExitPc.weight]
          omega
    · cases hstep
  | sendCtxDone =>
    simp only [Route.routerStep] at hstep
    split at hstep
    · next acc err hrouter hctx =>
      cases hstep
      have hfinish := weight_finish { r with dropped := r.dropped ++ [acc] }
        (some (.errorf "failed to send output: %w" [] err))
      have hsame : ({ r with dropped := r.dropped ++ [acc] } : Route α).weight = r.weight := rfl
      have hrouter' : ({ r with dropped := r.dropped ++ [acc] } : Route α).router.weight = 5 := by
        show r.router.weight = 5
        rw [hrouter, weight_sending]
      omega
    · cases hstep
  | _ => cases hstep

theorem exitStep_lt {a : RouteAct α} (hstep : r.exitStep a = some r') : r'.weight < r.weight := by
  cases a with
  | exitClosed =>
    simp only [Route.exitStep] at hstep
    split at hstep
    · next hexit =>
      split at hstep
      · cases hstep
        simp only [weight, hexit, ExitPc.weight]
        omega
      · cases hstep
    · cases hstep
  | exitSend =>
    simp only [Route.exitStep] at hstep
    split at hstep
    · next hexit =>
      cases hstep
      simp only [weight, hexit, ExitPc.weight]
      omega
    · cases hstep
  | exitCtxDone | exitSendCtxDone =>
    simp only [Route.exitStep] at hstep
    split at hstep
    · next hexit hctx =>
      cases hstep
      simp only [weight, hexit, ExitPc.weight]
      omega
    · cases hstep
  | _ => cases hstep

theorem outerStep_of_isInner {a : RouteAct α} (h : a.isInner = true) : r.outerStep a = none := by
  cases a <;> first | rfl | cases h

/-- Every act of the two goroutines leaves less to do. -/
theorem Inv.weight_lt (h : Inv r) {a : RouteAct α} (hinner : a.isInner = true)
    (hstep : r.step a = some r') : r'.weight < r.weight := by
  have hcrashed := (h.step hstep).crashed
  rcases step_cases hstep with houter | hrouter | hexit
  · rw [outerStep_of_isInner hinner] at houter
    cases houter
  · exact routerStep_lt hcrashed hrouter
  · exact exitStep_lt hexit

theorem next_of_enabled {a : RouteAct α} (h : r.Enabled a) : r.step a = some (r.next a) := by
  obtain ⟨x, hx⟩ := Option.isSome_iff_exists.1 h
  rw [next, hx]
  rfl

/-- So there can only be so many of them without an act of the outside. -/
theorem Inv.length_le_weight (h : Inv r) {inner : List (RouteAct α)}
    (henabled : Trace.Along next Enabled r inner) (hinner : ∀ a ∈ inner, a.isInner = true) :
    inner.length ≤ r.weight := by
  induction inner generalizing r with
  | nil => exact Nat.zero_le _
  | cons a inner ih =>
    have hstep := next_of_enabled henabled.1
    have hlt := h.weight_lt (hinner a List.mem_cons_self) hstep
    have hrest := ih (h.step hstep) henabled.2 fun a ha => hinner a (List.mem_cons_of_mem _ ha)
    rw [List.length_cons]
    omega

theorem inv_start (balance : α → Int) (sourceAmount : Int) : Inv (start balance sourceAmount) where
  crashed := rfl
  kept := rfl
  full := nofun
  fullHand := nofun
  closed := ⟨nofun, fun h => by rcases h with h | ⟨err, h⟩ <;> cases h⟩
  signal := nofun
  priority := nofun
  fallback := nofun
  returned := nofun
  exitReturned := nofun
  routerErr := nofun
  exitErr := nofun
  dropped := Nat.le_refl _
  busy := fun _ => .inl rfl

end Route

/-- In every interleaving of `RouteAccounts`, `EarlyExitFullAcountsToWithdraw` and their
surroundings: `withdrawableAccounts` is closed once and nothing is sent on it afterwards; no account
is lost or sent twice, except that each step drops the one in its hands if the context is cancelled;
and unless both steps have returned they go on, or wait for an input that is not closed or for an
account to be received on an output. They take only so many steps between two events outside. -/
theorem route_safe {balance : α → Int} {sourceAmount : Int} {acts : List (RouteAct α)}
    (henabled : Trace.Along Route.next Route.Enabled (Route.start balance sourceAmount) acts) :
    Trace.Always Route.next
      (fun r => r.Safe ∧ r.Progresses ∧ ∀ inner : List (RouteAct α),
        Trace.Along Route.next Route.Enabled r inner → (∀ a ∈ inner, a.isInner = true) →
          inner.length ≤ r.weight)
      (Route.start balance sourceAmount) acts := by
  have hinv : Trace.Always Route.next Route.Inv (Route.start balance sourceAmount) acts :=
    Trace.always_of_step (fun r a h ha => h.step (Route.next_of_enabled ha))
      (Route.inv_start balance sourceAmount) henabled
  exact hinv.mono fun r h => ⟨h.safe, h.progresses, fun inner => h.length_le_weight⟩

/-- A full account is handed on and one that is not full is returned; after the signal a full
account is returned too, and then both inputs are closed. -/
def routedThree : List (RouteAct Nat) :=
  [.offerPriority 10, .receivePriority, .sendWithdrawable, .exitSend, .offerPriority 3,
    .receivePriority, .sendToSource, .closeSignal, .offerFallback 20, .receiveSignal, .exitClosed,
    .noneReady, .receiveFallback, .sendToSource, .closePriority, .closeFallback, .receivePriority,
    .noneReady, .receiveFallback]

theorem route_safe_three :
    (routedThree.foldl Route.next (Route.start (fun n : Nat => (n : Int)) 10)).Safe ∧
      (routedThree.foldl Route.next (Route.start (fun n : Nat => (n : Int)) 10)).Finished ∧
      (routedThree.foldl Route.next (Route.start (fun n : Nat => (n : Int)) 10)).toWithdraw = [10] ∧
      (routedThree.foldl Route.next (Route.start (fun n : Nat => (n : Int)) 10)).toSource =
        [3, 20] :=
  ⟨(route_safe (by decide)).last.1, ⟨by decide, by decide⟩, by decide, by decide⟩

end Wallet
