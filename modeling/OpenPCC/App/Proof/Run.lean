import OpenPCC.App.Run

/-!
# What `Run` reports

* `Moves.of_step`: the steps of the goroutines, one by one.
* `Inv`: the code of the loop is that of the errors it has received, and `errs` is closed only when
  the result of `App.Run` was received. A step that is in time keeps it (`Inv.step`).
* `Lost`: `errs` was closed before. The run goroutine can only end in a panic (`Lost.crashed`).
* `steps_add_weight_le`, `Inv.returned`: every run ends, and if it is in time it ends with a code.
-/

namespace App

open Go

/-- The steps of the goroutines. -/
inductive Moves (s : State) : Act → State → Prop where
  | cancel : Moves s .cancel { s with ctxDone := true }
  | runReturns {err : Option Err} : s.runner = .running →
      Moves s (.runReturns err) { s with runner := .sending err }
  | runSend {err : Option Err} {code : Nat} : s.runner = .sending err →
      (∀ shutdown, s.stopper ≠ .closed shutdown) → s.collector = .collecting code →
      Moves s .runSend { s with runner := .sent err, collector := .collecting (collect code err) }
  | runCrash {err : Option Err} {shutdown : Option (Option Err)} : s.runner = .sending err →
      s.stopper = .closed shutdown → Moves s .runSend { s with runner := .crashed err }
  | closeRunDone {err : Option Err} : s.runner = .sent err →
      Moves s .closeRunDone { s with runner := .done err }
  | selectRunDone {err : Option Err} : s.runner = .done err → s.stopper = .selecting →
      Moves s .selectRunDone { s with stopper := .closing none }
  | selectCtxDone : s.stopper = .selecting → s.ctxDone = true →
      Moves s .selectCtxDone { s with stopper := .shuttingDown }
  | shutdownReturns {err : Option Err} : s.stopper = .shuttingDown →
      Moves s (.shutdownReturns err) { s with stopper := .waiting err }
  | waitRunDone {err err' : Option Err} : s.runner = .done err → s.stopper = .waiting err' →
      Moves s .waitRunDone { s with stopper := .sending err' }
  | timeout {err : Option Err} : s.stopper = .waiting err →
      Moves s .timeout { s with stopper := .sending err }
  | shutdownSend {err : Option Err} {code : Nat} : s.stopper = .sending err →
      s.collector = .collecting code →
      Moves s .shutdownSend { s with
        stopper := .closing (some err)
        collector := .collecting (collect code err) }
  | closeErrs {shutdown : Option (Option Err)} : s.stopper = .closing shutdown →
      Moves s .closeErrs { s with stopper := .closed shutdown }
  | finish {shutdown : Option (Option Err)} {code : Nat} : s.stopper = .closed shutdown →
      s.collector = .collecting code → Moves s .finish { s with collector := .returned code }

variable {s s' : State} {a : Act}

theorem Moves.of_runSend {err : Option Err} (hrunner : s.runner = .sending err)
    (h : s.runSend err = some s') : Moves s .runSend s' := by
  unfold State.runSend at h
  split at h
  · next hstopper =>
    cases h
    exact .runCrash hrunner hstopper
  · next hcollector hstopper =>
    cases h
    exact .runSend hrunner hstopper hcollector
  · cases h

theorem Moves.of_step (h : s.step a = some s') : Moves s a s' := by
  unfold State.step at h
  split at h
  · cases h
  · split at h
    · cases h
      exact .cancel
    · next hrunner =>
      cases h
      exact .runReturns hrunner
    · next hrunner => exact .of_runSend hrunner h
    · next hrunner =>
      cases h
      exact .closeRunDone hrunner
    · next hrunner hstopper =>
      cases h
      exact .selectRunDone hrunner hstopper
    · next hstopper =>
      split_ifs at h with hctx
      cases h
      exact .selectCtxDone hstopper hctx
    · next hstopper =>
      cases h
      exact .shutdownReturns hstopper
    · next hrunner hstopper =>
      cases h
      exact .waitRunDone hrunner hstopper
    · next hstopper =>
      cases h
      exact .timeout hstopper
    · next hstopper =>
      split at h
      · next hcollector =>
        cases h
        exact .shutdownSend hstopper hcollector
      · cases h
    · next hstopper =>
      cases h
      exact .closeErrs hstopper
    · next hstopper =>
      split at h
      · next hcollector =>
        cases h
        exact .finish hstopper hcollector
      · cases h
    · cases h

theorem Moves.of_enabled (h : s.Enabled a) : Moves s a (s.next a) := by
  obtain ⟨s', hs'⟩ := Option.isSome_iff_exists.1 h
  rw [State.next, hs']
  exact .of_step hs'

/-! ## The errors that were received -/

/-- The error of `App.Run`, once it was received. -/
def Runner.reported : Runner → Option Err
  | .sent err | .done err => err
  | .running | .sending _ | .crashed _ => none

/-- The error of `App.Shutdown`, once it was received. -/
def Stopper.reported : Stopper → Option Err
  | .closing (some err) | .closed (some err) => err
  | .selecting | .shuttingDown | .waiting _ | .sending _ | .closing none | .closed none => none

def Collector.code : Collector → Nat
  | .collecting code | .returned code => code

theorem collect_comm (code : Nat) (err err' : Option Err) :
    collect (collect code err) err' = collect (collect code err') err := by
  cases err <;> cases err' <;> rfl

theorem collect_eq_one_iff {err err' : Option Err} :
    collect (collect 0 err) err' = 1 ↔ err.isSome ∨ err'.isSome := by
  cases err <;> cases err' <;> simp [collect]

structure Inv (s : State) : Prop where
  code : s.collector.code = collect (collect 0 s.runner.reported) s.stopper.reported
  received : ∀ shutdown, s.stopper = .closed shutdown → s.runner.Received
  closed : ∀ code, s.collector = .returned code → ∃ shutdown, s.stopper = .closed shutdown
  no_crash : ∀ err, s.runner ≠ .crashed err

theorem inv_start : Inv {} where
  code := rfl
  received _ h := by cases h
  closed _ h := by cases h
  no_crash _ h := by cases h

theorem Inv.step (hinv : Inv s) (hmoves : Moves s a s') (htime : s.InTime a) : Inv s' := by
  obtain ⟨ctxDone, runner, stopper, collector⟩ := s
  obtain ⟨hcode, hreceived, hclosed, hcrash⟩ := hinv
  cases hmoves with
  | cancel => exact ⟨hcode, hreceived, hclosed, hcrash⟩
  | runReturns hrunner =>
    cases hrunner
    exact ⟨hcode, hreceived, hclosed, fun _ h => by cases h⟩
  | runSend hrunner _ hcollector =>
    cases hrunner
    cases hcollector
    refine ⟨?_, fun _ _ => trivial, fun _ h => (by cases h), fun _ h => by cases h⟩
    exact (congrArg (collect · _) hcode).trans (collect_comm _ _ _)
  | runCrash hrunner hstopper =>
    cases hrunner
    exact (hreceived _ hstopper).elim
  | closeRunDone hrunner =>
    cases hrunner
    exact ⟨hcode, fun _ _ => trivial, hclosed, fun _ h => by cases h⟩
  | selectRunDone _ hstopper | selectCtxDone hstopper _ | shutdownReturns hstopper
  | waitRunDone _ hstopper | timeout hstopper =>
    cases hstopper
    exact ⟨hcode, fun _ h => (by cases h), fun code h => by simpa using hclosed code h, hcrash⟩
  | shutdownSend hstopper hcollector =>
    cases hstopper
    cases hcollector
    refine ⟨?_, fun _ h => (by cases h), fun _ h => (by cases h), hcrash⟩
    exact congrArg (collect · _) hcode
  | @closeErrs shutdown hstopper =>
    cases hstopper
    refine ⟨?_, fun _ _ => htime, fun _ _ => ⟨_, rfl⟩, hcrash⟩
    cases shutdown <;> exact hcode
  | finish hstopper hcollector =>
    cases hcollector
    exact ⟨hcode, hreceived, fun _ _ => ⟨_, hstopper⟩, hcrash⟩

theorem reported_eq_some_iff {runner : Runner} (h : runner.Received) :
    runner.reported.isSome ↔ ∃ err, runner.result = some (some err) := by
  cases runner with
  | sent err => simp [Runner.reported, Runner.result, Option.isSome_iff_exists]
  | done err => simp [Runner.reported, Runner.result, Option.isSome_iff_exists]
  | running => exact h.elim
  | sending err => exact h.elim
  | crashed err => exact h.elim

theorem Inv.safe (hinv : Inv s) : s.Safe := by
  refine ⟨hinv.no_crash, fun code hcode => ?_⟩
  obtain ⟨shutdown, hshutdown⟩ := hinv.closed code hcode
  have hreceived : s.runner.Received := hinv.received shutdown hshutdown
  have hstopper : s.stopper.reported.isSome ↔ ∃ err, s.stopper.result = some (some err) := by
    rw [hshutdown]
    cases shutdown with
    | none => simp [Stopper.reported, Stopper.result]
    | some err => simp [Stopper.reported, Stopper.result, Option.isSome_iff_exists]
  have heq : code = collect (collect 0 s.runner.reported) s.stopper.reported := by
    rw [← hinv.code, hcode]
    rfl
  rw [heq, collect_eq_one_iff, reported_eq_some_iff hreceived, hstopper, State.Failed]

/-- `errs` was closed, and the result of `App.Run` was not received. -/
structure Lost (s : State) : Prop where
  closed : ∃ shutdown, s.stopper = .closed shutdown
  not_received : ¬ s.runner.Received

theorem lost_of_early (hmoves : Moves s a s') (hearly : ¬ s.InTime a) : Lost s' := by
  cases hmoves with
  | closeErrs _ => exact ⟨⟨_, rfl⟩, hearly⟩
  | _ => exact absurd trivial hearly

theorem Lost.step (h : Lost s) (hmoves : Moves s a s') : Lost s' := by
  obtain ⟨ctxDone, runner, stopper, collector⟩ := s
  obtain ⟨⟨shutdown, hclosed⟩, hnot⟩ := h
  cases hclosed
  cases hmoves with
  | cancel => exact ⟨⟨_, rfl⟩, hnot⟩
  | runReturns _ => exact ⟨⟨_, rfl⟩, id⟩
  | runSend _ hopen _ => exact absurd rfl (hopen _)
  | runCrash _ _ => exact ⟨⟨_, rfl⟩, id⟩
  | closeRunDone hrunner =>
    cases hrunner
    exact absurd trivial hnot
  | finish _ _ => exact ⟨⟨_, rfl⟩, hnot⟩
  | selectRunDone _ hstopper | selectCtxDone hstopper _ | shutdownReturns hstopper
  | waitRunDone _ hstopper | timeout hstopper | shutdownSend hstopper _ | closeErrs hstopper =>
    cases hstopper

theorem Lost.crashed (h : Lost s) (hend : s.Ended) : ∃ err, s.runner = .crashed err := by
  obtain ⟨ctxDone, runner, stopper, collector⟩ := s
  obtain ⟨⟨shutdown, hclosed⟩, hnot⟩ := h
  cases hclosed
  cases runner with
  | running => exact absurd rfl (hend (.runReturns none) (by decide))
  | sending err => exact absurd rfl (hend .runSend (by decide))
  | sent err => exact absurd trivial hnot
  | done err => exact absurd trivial hnot
  | crashed err => exact ⟨err, rfl⟩

/-! ## Every run ends -/

def Runner.weight : Runner → Nat
  | .running => 3
  | .sending _ => 2
  | .sent _ => 1
  | .done _ | .crashed _ => 0

def Stopper.weight : Stopper → Nat
  | .selecting => 5
  | .shuttingDown => 4
  | .waiting _ => 3
  | .sending _ => 2
  | .closing _ => 1
  | .closed _ => 0

def Collector.weight : Collector → Nat
  | .collecting _ => 1
  | .returned _ => 0

/-- The number of steps that are left at most, but for the context. -/
def State.weight (s : State) : Nat := s.runner.weight + s.stopper.weight + s.collector.weight

theorem weight_lt (hmoves : Moves s a s') (ha : a ≠ .cancel) : s'.weight < s.weight := by
  cases hmoves
  case cancel => exact absurd rfl ha
  all_goals simp_all only [State.weight, Runner.weight, Stopper.weight, Collector.weight]
  all_goals omega

theorem weight_cancel (s : State) : { s with ctxDone := true }.weight = s.weight := rfl

/-- At most nine steps follow the start of the goroutines. -/
theorem steps_add_weight_le {acts : List Act}
    (henabled : Trace.Along State.next State.Enabled s acts) :
    (acts.filter (· ≠ .cancel)).length + (acts.foldl State.next s).weight ≤ s.weight := by
  induction acts generalizing s with
  | nil => simp
  | cons a acts ih =>
    have hmoves := Moves.of_enabled henabled.1
    have hrest := ih henabled.2
    rw [List.foldl_cons]
    by_cases ha : a = .cancel
    · subst ha
      have hweight : (s.next .cancel).weight = s.weight := by
        generalize s.next .cancel = s' at hmoves ⊢
        cases hmoves
        exact weight_cancel s
      rw [List.filter_cons_of_neg (by decide)]
      omega
    · have hlt := weight_lt hmoves ha
      rw [List.filter_cons_of_pos (by simpa using ha), List.length_cons]
      omega

theorem Inv.returned (hinv : Inv s) (hend : s.Ended) : ∃ code, s.collector = .returned code := by
  obtain ⟨ctxDone, runner, stopper, collector⟩ := s
  cases collector with
  | returned code => exact ⟨code, rfl⟩
  | collecting code =>
    exfalso
    cases runner with
    | running => exact hend (.runReturns none) (by decide) rfl
    | sending err =>
      cases stopper with
      | closed shutdown => exact (hinv.received _ rfl).elim
      | selecting => exact hend .runSend (by decide) rfl
      | shuttingDown => exact hend .runSend (by decide) rfl
      | waiting err' => exact hend .runSend (by decide) rfl
      | sending err' => exact hend .runSend (by decide) rfl
      | closing shutdown => exact hend .runSend (by decide) rfl
    | sent err => exact hend .closeRunDone (by decide) rfl
    | crashed err => exact hinv.no_crash err rfl
    | done err =>
      cases stopper with
      | selecting => exact hend .selectRunDone (by decide) rfl
      | shuttingDown => exact hend (.shutdownReturns none) (by decide) rfl
      | waiting err' => exact hend .waitRunDone (by decide) rfl
      | sending err' => exact hend .shutdownSend (by decide) rfl
      | closing shutdown => exact hend .closeErrs (by decide) rfl
      | closed shutdown => exact hend .finish (by decide) rfl

/-! ## Runs -/

/-- In every interleaving in which `errs` is not closed before the result of `App.Run` is received,
nothing is sent on a closed channel and all errors are reported. A run that has come to its end is
like that only if it was in time, and then `Run` has returned. -/
theorem run_safe_iff {acts : List Act}
    (henabled : Trace.Along State.next State.Enabled {} acts) :
    (Trace.Along State.next State.InTime {} acts → Trace.Always State.next State.Safe {} acts) ∧
      ((acts.foldl State.next {}).Ended →
        (Trace.Always State.next State.Safe {} acts ↔
          Trace.Along State.next State.InTime {} acts) ∧
        (Trace.Along State.next State.InTime {} acts →
          ∃ code, (acts.foldl State.next {}).collector = .returned code)) := by
  have hinv (htime : Trace.Along State.next State.InTime {} acts) :=
    Trace.always_of_step
      (fun s a (h : Inv s) (he : s.Enabled a ∧ s.InTime a) => h.step (.of_enabled he.1) he.2)
      inv_start (henabled.and htime)
  have hsafe (htime : Trace.Along State.next State.InTime {} acts) :=
    (hinv htime).mono fun s h => h.safe
  refine ⟨hsafe, fun hend => ⟨⟨fun hall => ?_, hsafe⟩, fun htime => ?_⟩⟩
  swap
  · exact (hinv htime).last.returned hend
  obtain ⟨htime, -⟩ | ⟨-, hlost⟩ := Trace.along_or_of_step
    (fun s a h he htime => Inv.step h (.of_enabled he) htime)
    (fun s a _ he hearly => lost_of_early (.of_enabled he) hearly)
    (fun s a (h : Lost s) he => h.step (.of_enabled he)) inv_start henabled
  · exact htime
  · obtain ⟨err, hcrashed⟩ := hlost.crashed hend
    exact absurd hcrashed (hall.last.1 err)

/-- The context is cancelled and `App.Shutdown` fails; `App.Run` returns after the timer has
expired, and its result is received before `errs` is closed. -/
def lateResult : List Act :=
  [.cancel, .selectCtxDone, .shutdownReturns (some (.new "shutdown error" [])), .timeout,
    .runReturns none, .runSend, .shutdownSend, .closeErrs, .closeRunDone, .finish]

theorem run_safe_iff_lateResult :
    (lateResult.foldl State.next {}).Ended ∧ Trace.Always State.next State.Safe {} lateResult ∧
      (lateResult.foldl State.next {}).collector = .returned 1 := by
  have hend : (lateResult.foldl State.next {}).Ended := by
    intro a ha henabled
    cases a <;> first | exact absurd rfl ha | cases henabled
  exact ⟨hend, ((run_safe_iff (by decide)).2 hend).1.2 (by decide), rfl⟩

/-- `App.Run` returns an error after the timer has expired. -/
def earlyTimer : List Act :=
  [.cancel, .selectCtxDone, .shutdownReturns none, .timeout, .shutdownSend, .closeErrs, .finish,
    .runReturns (some (.new "run error" [])), .runSend]

/-- The code is 0, and the run goroutine sends the error on the closed channel. -/
theorem earlyTimer_crashes :
    Trace.Along State.next State.Enabled {} earlyTimer ∧
      (earlyTimer.foldl State.next {}).collector = .returned 0 ∧
      (earlyTimer.foldl State.next {}).runner = .crashed (some (.new "run error" [])) ∧
      ¬ Trace.Always State.next State.Safe {} earlyTimer := by
  refine ⟨by decide, rfl, rfl, fun h => ?_⟩
  exact h.last.1 _ rfl

end App
