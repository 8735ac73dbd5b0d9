import OpenPCC.App.Multi
import OpenPCC.Lib.Bag

/-!
# What `Multi.Run` reports

* `AppMoves`, `MultiMoves`: the steps of the goroutines.
* `GroupApp.Inv`: where the two goroutines of an application are agrees with what its calls have
  returned. `Multi.Inv`: with this the errors that were received are those of the applications that
  are done. Every step keeps both.
* `Inv.progresses`: `Run` waits for nothing but the applications.
* `weight_lt`: every run of the goroutines ends.
-/

namespace App

open Go

/-! ## Steps -/

/-- The steps that stay within one application. -/
inductive AppMoves (ctxDone : Bool) (a : GroupApp) : GroupApp → Prop where
  | runReturns {err : Option Err} : a.app = .running →
      AppMoves ctxDone a { a with app := .sending err, runErr := some err }
  | receive {err : Option Err} : a.app = .sending err → a.group = .selecting →
      AppMoves ctxDone a { a with app := .done, group := .returned err }
  | receiveStopped {err shutdownErr : Option Err} : a.app = .sending err →
      a.group = .waiting shutdownErr →
      AppMoves ctxDone a { a with app := .done, group := .returned (join shutdownErr err) }
  | selectCtxDone : a.group = .selecting → ctxDone = true →
      AppMoves ctxDone a { a with group := .shuttingDown }
  | shutdownReturns {err : Option Err} : a.group = .shuttingDown →
      AppMoves ctxDone a { a with group := .waiting err, shutdownErr := some err }
  | finish : a.group = .returned none → AppMoves ctxDone a { a with group := .done }

inductive MultiMoves (m : Multi) : Multi → Prop where
  | app {i : Nat} {a a' : GroupApp} : m.apps[i]? = some a → AppMoves m.groupCtxDone a a' →
      MultiMoves m (m.setApp i a')
  | sendErr {i : Nat} {a : GroupApp} {err : Err} : m.apps[i]? = some a →
      a.group = .returned (some err) → MultiMoves m (m.sendErr i a err)
  | cancel {i : Nat} {a : GroupApp} : m.apps[i]? = some a → a.group = .cancelling →
      MultiMoves m ({ m with groupCtxDone := true }.setApp i { a with group := .done })
  | closeErrs : m.errsClosed = false → (∀ a ∈ m.apps, a.group = .done) →
      MultiMoves m { m with errsClosed := true }
  | endLoop : m.errsClosed = true → MultiMoves m { m with returned := true }

namespace Multi

variable {m m' : Multi} {i : Nat} {a : GroupApp}

theorem moves_of_appStep {act : GroupAct} (ha : m.apps[i]? = some a)
    (h : m.appStep i a act = some m') : MultiMoves m m' := by
  cases act with
  | runReturns err =>
    simp only [appStep] at h
    split at h
    · next happ =>
      cases h
      exact .app ha (.runReturns happ)
    · cases h
  | sendResult =>
    simp only [appStep] at h
    split at h
    · next happ =>
      obtain ⟨a', ha', rfl⟩ := Option.map_eq_some_iff.1 h
      unfold GroupApp.receive at ha'
      split at ha'
      · next hgroup =>
        cases ha'
        exact .app ha (.receive happ hgroup)
      · next hgroup =>
        cases ha'
        exact .app ha (.receiveStopped happ hgroup)
      · cases ha'
    · cases h
  | selectCtxDone =>
    simp only [appStep] at h
    split at h
    · next hgroup hctx =>
      cases h
      exact .app ha (.selectCtxDone hgroup hctx)
    · cases h
  | shutdownReturns err =>
    simp only [appStep] at h
    split at h
    · next hgroup =>
      cases h
      exact .app ha (.shutdownReturns hgroup)
    · cases h
  | sendErr =>
    simp only [appStep] at h
    split at h
    · next hgroup =>
      cases h
      exact .sendErr ha hgroup
    · cases h
  | cancel =>
    simp only [appStep] at h
    split at h
    · next hgroup =>
      cases h
      exact .cancel ha hgroup
    · cases h
  | finish =>
    simp only [appStep] at h
    split at h
    · next hgroup =>
      cases h
      exact .app ha (.finish hgroup)
    · cases h

theorem moves_of_step {act : MultiAct} (h : m.step act = some m') :
    m.returned = false ∧ MultiMoves m m' := by
  unfold step at h
  split at h
  · cases h
  · next hrun =>
    refine ⟨by simp_all, ?_⟩
    cases act with
    | app i act =>
      obtain ⟨a, ha, h⟩ := Option.bind_eq_some_iff.1 h
      exact moves_of_appStep ha h
    | closeErrs =>
      simp only at h
      split at h
      · next hclose =>
        cases h
        exact .closeErrs hclose.1 hclose.2
      · cases h
    | endLoop =>
      simp only at h
      split at h
      · next hclosed =>
        cases h
        exact .endLoop hclosed
      · cases h

end Multi

/-! ## One application -/

namespace GroupApp

/-- What the calls have returned, in the states of the goroutine of `App.Run`. -/
def RunInv (a : GroupApp) : Prop :=
  match a.app with
  | .running => a.runErr = none
  | .sending err => a.runErr = some err
  | .done => a.runErr.isSome = true

/-- The same for the goroutine of the group. -/
def StopInv (ctxDone : Bool) (a : GroupApp) : Prop :=
  match a.group with
  | .selecting => a.app ≠ .done ∧ a.shutdownErr = none
  | .shuttingDown => a.app ≠ .done ∧ a.shutdownErr = none
  | .waiting err => a.app ≠ .done ∧ a.shutdownErr = some err
  | .returned err => a.app = .done ∧ err = a.err
  | .cancelling => a.app = .done ∧ a.err.isSome = true
  | .done => a.app = .done ∧ (a.err.isSome = true → ctxDone = true)

structure Inv (ctxDone : Bool) (a : GroupApp) : Prop where
  run : a.RunInv
  group : a.StopInv ctxDone

variable {ctxDone : Bool} {a a' : GroupApp}

theorem inv_start : Inv ctxDone {} := ⟨rfl, by simp [StopInv]⟩

theorem Inv.step (h : Inv ctxDone a) (hmoves : AppMoves ctxDone a a') : Inv ctxDone a' := by
  obtain ⟨app, group, runErr, shutdownErr⟩ := a
  obtain ⟨hrun, hgroup⟩ := h
  cases hmoves with
  | runReturns happ =>
    cases happ
    refine ⟨rfl, ?_⟩
    cases group <;> simp_all [StopInv]
  | receive happ hg =>
    cases happ
    cases hg
    obtain rfl : runErr = some _ := hrun
    obtain rfl : shutdownErr = none := hgroup.2
    exact ⟨rfl, rfl, rfl⟩
  | receiveStopped happ hg =>
    cases happ
    cases hg
    obtain rfl : runErr = some _ := hrun
    obtain rfl : shutdownErr = some _ := hgroup.2
    exact ⟨rfl, rfl, rfl⟩
  | selectCtxDone hg hctx =>
    cases hg
    exact ⟨hrun, hgroup⟩
  | shutdownReturns hg =>
    cases hg
    exact ⟨hrun, hgroup.1, rfl⟩
  | finish hg =>
    cases hg
    refine ⟨hrun, hgroup.1, fun herr => ?_⟩
    have hnone : GroupApp.err ⟨app, .done, runErr, shutdownErr⟩ = none := hgroup.2.symm
    rw [hnone] at herr
    cases herr

theorem Inv.mono (h : Inv ctxDone a) : Inv true a := by
  refine ⟨h.run, ?_⟩
  have hgroup := h.group
  unfold StopInv at hgroup ⊢
  split <;> simp_all

/-- The error of the application, once it was received. -/
def reported (a : GroupApp) : Multiset Err :=
  match a.group with
  | .cancelling | .done => (a.err.toList : Multiset Err)
  | _ => 0

/-- The steps within an application report nothing. -/
theorem Inv.reported_eq (h : Inv ctxDone a) (hmoves : AppMoves ctxDone a a') :
    a'.reported = a.reported := by
  obtain ⟨app, group, runErr, shutdownErr⟩ := a
  have hgroup := h.group
  cases hmoves with
  | runReturns happ =>
    cases happ
    cases group with
    | cancelling => cases hgroup.1
    | done => cases hgroup.1
    | selecting => rfl
    | shuttingDown => rfl
    | waiting err => rfl
    | returned err => rfl
  | receive _ hg =>
    cases hg
    rfl
  | receiveStopped _ hg =>
    cases hg
    rfl
  | selectCtxDone hg _ =>
    cases hg
    rfl
  | shutdownReturns hg =>
    cases hg
    rfl
  | finish hg =>
    cases hg
    have hnone : GroupApp.err ⟨app, .done, runErr, shutdownErr⟩ = none := hgroup.2.symm
    simp [reported, hnone]

theorem Inv.not_done (h : Inv ctxDone a) (hmoves : AppMoves ctxDone a a') : a.group ≠ .done := by
  intro hdone
  have hgroup := h.group
  simp only [StopInv, hdone] at hgroup
  cases hmoves <;> simp_all

theorem Inv.runErr_of_done (h : Inv ctxDone a) (hdone : a.group = .done) :
    a.runErr.isSome = true ∧ (a.err.isSome = true → ctxDone = true) := by
  have hgroup := h.group
  have hrun := h.run
  simp only [StopInv, hdone] at hgroup
  simp only [RunInv, hgroup.1] at hrun
  exact ⟨hrun, hgroup.2⟩

theorem isSome_err_iff (h : a.runErr.isSome = true) :
    a.err.isSome = true ↔
      (∃ err, a.runErr = some (some err)) ∨ ∃ err, a.shutdownErr = some (some err) := by
  obtain ⟨app, group, runErr, shutdownErr⟩ := a
  cases runErr with
  | none => cases h
  | some runErr =>
    cases runErr <;> rcases shutdownErr with _ | _ | _ <;> simp [GroupApp.err, join]

end GroupApp

/-! ## The group -/

namespace Multi

variable {m m' : Multi} {i : Nat} {a : GroupApp}

structure Inv (m : Multi) : Prop where
  crashed : m.crashed = false
  apps : ∀ a ∈ m.apps, a.Inv m.groupCtxDone
  outErr : m.outErr = m.received.foldl (fun outErr err => join outErr (some err)) none
  received : (m.received : Multiset Err) = (m.apps.map GroupApp.reported).sum
  closed : m.errsClosed = true → ∀ a ∈ m.apps, a.group = .done
  returned : m.returned = true → ∀ a ∈ m.apps, a.group = .done

theorem inv_start (n : Nat) : (start n).Inv := by
  unfold start
  split
  · exact ⟨rfl, by simp, rfl, rfl, by simp, by simp⟩
  · refine ⟨rfl, fun a ha => ?_, rfl, ?_, fun h => (by cases h), fun h => by cases h⟩
    · rw [List.eq_of_mem_replicate ha]
      exact GroupApp.inv_start
    · simp [GroupApp.reported]

theorem mem_set {a' b : GroupApp} (h : b ∈ m.apps.set i a') : b = a' ∨ b ∈ m.apps :=
  (List.mem_or_eq_of_mem_set h).symm

theorem Inv.open_of_not_done (h : m.Inv) (ha : m.apps[i]? = some a) (hdone : a.group ≠ .done) :
    m.errsClosed = false :=
  Bool.eq_false_iff.2 fun hclosed => hdone (h.closed hclosed a (List.mem_of_getElem? ha))

theorem Inv.step (h : m.Inv) (hrun : m.returned = false) (hmoves : MultiMoves m m') : m'.Inv := by
  cases hmoves with
  | @app i a a' ha hmoves =>
    have hinv := h.apps a (List.mem_of_getElem? ha)
    have hopen := h.open_of_not_done ha (hinv.not_done hmoves)
    refine ⟨h.crashed, fun b hb => ?_, h.outErr, ?_, fun hclosed => ?_, fun hret => ?_⟩
    · rcases mem_set hb with rfl | hb
      · exact hinv.step hmoves
      · exact h.apps b hb
    · have hset := Bag.sum_map_set ha a' GroupApp.reported
      rw [hinv.reported_eq hmoves] at hset
      exact h.received.trans (add_right_cancel hset).symm
    · cases hopen.symm.trans hclosed
    · cases hrun.symm.trans hret
  | @sendErr i a err ha hgroup =>
    have hinv := h.apps a (List.mem_of_getElem? ha)
    have hopen := h.open_of_not_done ha (by rw [hgroup]; exact GroupRun.noConfusion)
    have herr : a.err = some err := by
      have := hinv.group
      simp only [GroupApp.StopInv, hgroup] at this
      exact this.2.symm
    have happ : a.app = .done := by
      have := hinv.group
      simp only [GroupApp.StopInv, hgroup] at this
      exact this.1
    rw [Multi.sendErr, hopen, if_neg (by decide)]
    refine ⟨h.crashed, fun b hb => ?_, ?_, ?_, fun hclosed => ?_, fun hret => ?_⟩
    · rcases mem_set hb with rfl | hb
      · refine ⟨hinv.run, happ, ?_⟩
        rw [show GroupApp.err { a with group := .cancelling } = a.err from rfl, herr]
        rfl
      · exact h.apps b hb
    · simp only [List.foldl_append, List.foldl_cons, List.foldl_nil, ← h.outErr]
    · have hset := Bag.sum_map_set ha { a with group := .cancelling } GroupApp.reported
      have hbefore : a.reported = 0 := by simp [GroupApp.reported, hgroup]
      have hafter : GroupApp.reported { a with group := .cancelling } = {err} := by
        show (a.err.toList : Multiset Err) = {err}
        rw [herr]
        rfl
      rw [hbefore, hafter, add_zero] at hset
      show ((m.received ++ [err] : List Err) : Multiset Err) = _
      rw [Bag.coe_append_singleton, h.received, hset, add_comm]
    · cases hclosed
    · cases hrun.symm.trans hret
  | @cancel i a ha hgroup =>
    have hinv := h.apps a (List.mem_of_getElem? ha)
    have hopen := h.open_of_not_done ha (by rw [hgroup]; exact GroupRun.noConfusion)
    have happ : a.app = .done := by
      have := hinv.group
      simp only [GroupApp.StopInv, hgroup] at this
      exact this.1
    refine ⟨h.crashed, fun b hb => ?_, h.outErr, ?_, fun hclosed => ?_, fun hret => ?_⟩
    · rcases mem_set hb with rfl | hb
      · exact ⟨hinv.run, happ, fun _ => rfl⟩
      · exact (h.apps b hb).mono
    · have hset := Bag.sum_map_set ha { a with group := .done } GroupApp.reported
      have hsame : GroupApp.reported { a with group := .done } = a.reported := by
        simp [GroupApp.reported, hgroup, GroupApp.err]
      rw [hsame] at hset
      exact h.received.trans (add_right_cancel hset).symm
    · cases hopen.symm.trans hclosed
    · cases hrun.symm.trans hret
  | closeErrs hopen hdone =>
    exact ⟨h.crashed, h.apps, h.outErr, h.received, fun _ => hdone, h.returned⟩
  | endLoop hclosed =>
    exact ⟨h.crashed, h.apps, h.outErr, h.received, h.closed, fun _ => h.closed hclosed⟩

theorem isSome_foldl_join (errs : List Err) (outErr : Option Err) :
    (errs.foldl (fun outErr err => join outErr (some err)) outErr).isSome = true ↔
      outErr.isSome = true ∨ errs ≠ [] := by
  induction errs generalizing outErr with
  | nil => simp
  | cons err errs ih =>
    have hjoin : (join outErr (some err)).isSome = true := by cases outErr <;> rfl
    simp [ih, hjoin]

theorem Inv.errors_eq (h : m.Inv) (hdone : ∀ a ∈ m.apps, a.group = .done) :
    (m.received : Multiset Err) = m.errors := by
  rw [h.received, errors]
  congr 1
  refine List.map_congr_left fun a ha => ?_
  simp [GroupApp.reported, hdone a ha]

theorem Inv.failed_iff (h : m.Inv) (hdone : ∀ a ∈ m.apps, a.group = .done) :
    m.Failed ↔ ∃ a ∈ m.apps, a.err.isSome = true := by
  refine exists_congr fun a => and_congr_right fun ha => ?_
  exact (GroupApp.isSome_err_iff ((h.apps a ha).runErr_of_done (hdone a ha)).1).symm

theorem mem_errors {err : Err} : err ∈ m.errors ↔ ∃ a ∈ m.apps, a.err = some err := by
  unfold errors
  induction m.apps with
  | nil => simp
  | cons a apps ih => simp [ih]

theorem Inv.safe (h : m.Inv) : m.Safe where
  crashed := h.crashed
  outErr := h.outErr
  apps hret a ha := ((h.apps a ha).runErr_of_done (h.returned hret a ha)).1
  received hret := h.errors_eq (h.returned hret)
  failed hret := by
    have hdone := h.returned hret
    rw [h.outErr, isSome_foldl_join, h.failed_iff hdone]
    simp only [Option.isSome_none, Bool.false_eq_true, false_or]
    rw [← List.length_pos_iff, ← Multiset.coe_card, h.errors_eq hdone,
      Multiset.card_pos_iff_exists_mem]
    simp only [mem_errors, Option.isSome_iff_exists]
    tauto
  cancelled hret hfailed := by
    have hdone := h.returned hret
    obtain ⟨a, ha, herr⟩ := (h.failed_iff hdone).1 hfailed
    exact ((h.apps a ha).runErr_of_done (hdone a ha)).2 herr

/-! ## What `Run` waits for -/

theorem enabled_app (hcrashed : m.crashed = false) (hret : m.returned = false)
    (ha : m.apps[i]? = some a) {act : GroupAct} (h : (m.appStep i a act).isSome = true) :
    m.Enabled (.app i act) := by
  simp [Enabled, step, hcrashed, hret, ha, h]

/-- If nothing but the end of a call can happen, an application that is not done is in one, and it
has been told to stop if the group is cancelled. -/
theorem Inv.waits (h : m.Inv) (hwaits : m.Waits) (hret : m.returned = false)
    (ha : m.apps[i]? = some a) (hdone : a.group ≠ .done) :
    (a.app = .running ∨ a.group = .shuttingDown) ∧ (m.groupCtxDone = true → a.Stopping) := by
  have hno : ∀ act, (∀ err, act ≠ GroupAct.runReturns err) →
      (∀ err, act ≠ GroupAct.shutdownReturns err) → (m.appStep i a act).isSome = false := by
    intro act hrun hshut
    refine Bool.eq_false_iff.2 fun hsome => ?_
    obtain ⟨j, err, heq | heq⟩ := hwaits _ (enabled_app h.crashed hret ha hsome)
    · cases heq
      exact hrun err rfl
    · cases heq
      exact hshut err rfl
  have hinv := h.apps a (List.mem_of_getElem? ha)
  have hgroup := hinv.group
  have hsend := hno .sendResult (fun _ => GroupAct.noConfusion) fun _ => GroupAct.noConfusion
  have hctx := hno .selectCtxDone (fun _ => GroupAct.noConfusion) fun _ => GroupAct.noConfusion
  have herr := hno .sendErr (fun _ => GroupAct.noConfusion) fun _ => GroupAct.noConfusion
  have hcancel := hno .cancel (fun _ => GroupAct.noConfusion) fun _ => GroupAct.noConfusion
  have hfinish := hno .finish (fun _ => GroupAct.noConfusion) fun _ => GroupAct.noConfusion
  obtain ⟨app, group, runErr, shutdownErr⟩ := a
  cases group with
  | done => exact absurd rfl hdone
  | shuttingDown => exact ⟨.inr rfl, fun _ => .inl rfl⟩
  | cancelling => cases hcancel
  | returned err => cases err <;> [cases hfinish; cases herr]
  | selecting =>
    cases app with
    | done => exact absurd rfl hgroup.1
    | sending err => cases hsend
    | running =>
      refine ⟨.inl rfl, fun hdone => ?_⟩
      simp [appStep, hdone] at hctx
  | waiting err =>
    cases app with
    | done => exact absurd rfl hgroup.1
    | sending err => cases hsend
    | running => exact ⟨.inl rfl, fun _ => .inr ⟨err, rfl⟩⟩

theorem Inv.progresses (h : m.Inv) : m.Progresses := by
  intro hwaits hret
  have hblocked : ∀ a ∈ m.apps, a.group ≠ .done →
      (a.app = .running ∨ a.group = .shuttingDown) ∧ (m.groupCtxDone = true → a.Stopping) := by
    intro a ha hdone
    obtain ⟨i, hi⟩ := List.mem_iff_getElem?.1 ha
    exact h.waits hwaits hret hi hdone
  refine ⟨?_, fun hctx a ha hdone => (hblocked a ha hdone).2 hctx⟩
  by_contra hnone
  have hdone : ∀ a ∈ m.apps, a.group = .done := by
    intro a ha
    by_contra hne
    exact hnone ⟨a, ha, (hblocked a ha hne).1⟩
  -- all goroutines are done, so `errs` is closed and the loop ends
  cases hclosed : m.errsClosed with
  | false =>
    have henabled : m.Enabled .closeErrs := by
      simp [Enabled, Multi.step, h.crashed, hret, hclosed]
      exact hdone
    obtain ⟨i, err, heq | heq⟩ := hwaits _ henabled <;> cases heq
  | true =>
    have henabled : m.Enabled .endLoop := by simp [Enabled, Multi.step, h.crashed, hret, hclosed]
    obtain ⟨i, err, heq | heq⟩ := hwaits _ henabled <;> cases heq

/-! ## Runs -/

end Multi

def AppRun.weight : AppRun → Nat
  | .running => 2
  | .sending _ => 1
  | .done => 0

def GroupRun.weight : GroupRun → Nat
  | .selecting => 5
  | .shuttingDown => 4
  | .waiting _ => 3
  | .returned _ => 2
  | .cancelling => 1
  | .done => 0

def GroupApp.weight (a : GroupApp) : Nat := a.app.weight + a.group.weight

theorem AppMoves.weight_lt {ctxDone : Bool} {a a' : GroupApp} (h : AppMoves ctxDone a a') :
    a'.weight < a.weight := by
  cases h <;> simp_all [GroupApp.weight, AppRun.weight, GroupRun.weight]

namespace Multi

variable {m m' : Multi} {i : Nat} {a : GroupApp}

/-- The number of steps that are left at most. -/
def weight (m : Multi) : Nat :=
  (m.apps.map GroupApp.weight).sum + (!m.errsClosed).toNat + (!m.returned).toNat

theorem sum_weight_set_lt {a' : GroupApp} (ha : m.apps[i]? = some a) (hlt : a'.weight < a.weight) :
    ((m.apps.set i a').map GroupApp.weight).sum < (m.apps.map GroupApp.weight).sum := by
  have hset := Bag.sum_map_set ha a' GroupApp.weight
  omega

theorem Inv.weight_lt (h : m.Inv) (hret : m.returned = false) (hmoves : MultiMoves m m') :
    m'.weight < m.weight := by
  cases hmoves with
  | app ha hmoves =>
    have := sum_weight_set_lt ha hmoves.weight_lt
    simp only [weight, setApp]
    omega
  | @sendErr i a err ha hgroup =>
    have hopen := h.open_of_not_done ha (by rw [hgroup]; exact GroupRun.noConfusion)
    have hlt : GroupApp.weight { a with group := .cancelling } < a.weight := by
      simp [GroupApp.weight, GroupRun.weight, hgroup]
    have := sum_weight_set_lt ha hlt
    simp only [weight, sendErr, hopen]
    simp only [Bool.false_eq_true, if_false]
    omega
  | @cancel i a ha hgroup =>
    have hlt : GroupApp.weight { a with group := .done } < a.weight := by
      simp [GroupApp.weight, GroupRun.weight, hgroup]
    have := sum_weight_set_lt ha hlt
    simp only [weight, setApp]
    omega
  | closeErrs hopen hdone => simp [weight, hopen]
  | endLoop hclosed => simp [weight, hret]

theorem Inv.next (h : m.Inv) {act : MultiAct} (henabled : m.Enabled act) :
    (m.next act).Inv ∧ (m.next act).weight < m.weight := by
  obtain ⟨m', hm'⟩ := Option.isSome_iff_exists.1 henabled
  obtain ⟨hret, hmoves⟩ := moves_of_step hm'
  rw [Multi.next, hm']
  exact ⟨h.step hret hmoves, h.weight_lt hret hmoves⟩

theorem Inv.length_add_weight_le (h : m.Inv) {acts : List MultiAct}
    (henabled : Trace.Along Multi.next Enabled m acts) :
    acts.length + (acts.foldl Multi.next m).weight ≤ m.weight := by
  induction acts generalizing m with
  | nil => simp
  | cons act acts ih =>
    obtain ⟨hinv, hlt⟩ := h.next henabled.1
    have := ih hinv henabled.2
    rw [List.length_cons, List.foldl_cons]
    omega

theorem weight_start (n : Nat) : (start n).weight ≤ 7 * n + 2 := by
  unfold start
  split
  · simp [weight]
  · simp [weight, GroupApp.weight, AppRun.weight, GroupRun.weight]
    omega

end Multi

/-- In every interleaving of the goroutines of `Multi.Run`: nothing is sent on a closed channel;
when `Run` returns, every application has returned and the errors that are joined are those of the
applications, each once; if a call has failed the error is not nil and the group was cancelled.
`Run` waits for nothing but calls of the applications, which have all been told to stop if the group
is cancelled, and takes at most seven steps for each application and two more. -/
theorem multi_run_safe {n : Nat} {acts : List MultiAct}
    (henabled : Trace.Along Multi.next Multi.Enabled (Multi.start n) acts) :
    Trace.Always Multi.next (fun m => m.Safe ∧ m.Progresses) (Multi.start n) acts ∧
      acts.length ≤ 7 * n + 2 := by
  have hinv := Trace.always_of_step (fun m act (h : m.Inv) he => (h.next he).1) (Multi.inv_start n)
    henabled
  refine ⟨hinv.mono fun _ h => ⟨h.safe, h.progresses⟩, ?_⟩
  have hlength := (Multi.inv_start n).length_add_weight_le henabled
  have hstart := Multi.weight_start n
  omega

/-- The first of two applications fails; the other is shut down, with an error. -/
def firstFails : List MultiAct :=
  [.app 0 (.runReturns (some (.new "run error" []))), .app 0 .sendResult, .app 0 .sendErr,
    .app 0 .cancel, .app 1 .selectCtxDone, .app 1 (.runReturns none),
    .app 1 (.shutdownReturns (some (.new "shutdown error" []))), .app 1 .sendResult,
    .app 1 .sendErr, .app 1 .cancel, .closeErrs, .endLoop]

theorem multi_run_safe_firstFails :
    (firstFails.foldl Multi.next (Multi.start 2)).returned = true ∧
      (firstFails.foldl Multi.next (Multi.start 2)).Safe :=
  ⟨rfl, (multi_run_safe (by decide)).1.last.1⟩

end App
