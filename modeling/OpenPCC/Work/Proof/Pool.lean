import Mathlib.Tactic.Abel
import OpenPCC.Lib.Bag
import OpenPCC.Work.Pool

/-!
# The pool of workers loses no job

* `Jobs`, `Counters`: the account of the jobs and of the workers. Every step keeps both.
* `Holder.Phase`: what the context and `jobQueue` are while the lock is held.
* `Live`: a worker is left as long as a job can be in the channel. `ScaleWorkers` keeps this only if
  `workers` counts no worker that was told to stop.
* `Inv.finishes`: from every state in which `Close` has begun, the workers and `Close` can go on
  until it returns.
-/

namespace Work

open Go

variable {J : Type}

namespace Worker

/-- `wg` counts the worker. -/
def isWaitedFor : Worker J → Bool
  | .leaving | .exited => false
  | _ => true

/-- `idleWorkers` counts the worker, as long as `jobQueue` is open. -/
def isIdle : Worker J → Bool
  | .selecting | .received _ | .stopping => true
  | _ => false

theorem isWaitedFor_of_isLive {w : Worker J} (h : w.isLive = true) : w.isWaitedFor = true := by
  cases w <;> first | rfl | cases h

theorem hand_of_not_isWaitedFor {w : Worker J} (h : w.isWaitedFor = false) : w.hand = 0 := by
  cases w <;> first | rfl | cases h

end Worker

namespace Holder

/-- What the context and `jobQueue` are. -/
def Phase : Holder → Bool → Bool → Prop
  | .none, ctxDone, queueClosed => ctxDone = queueClosed
  | .scaling _ _, ctxDone, queueClosed | .cancelling, ctxDone, queueClosed =>
    ctxDone = false ∧ queueClosed = false
  | .loadingIdle, ctxDone, queueClosed | .loadingWorkers _, ctxDone, queueClosed
  | .closingQueue, ctxDone, queueClosed => ctxDone = true ∧ queueClosed = false
  | .waiting, ctxDone, queueClosed => ctxDone = true ∧ queueClosed = true

/-- The workers that `ScaleWorkers` still has to start, or to stop if it is negative. -/
def diff : Holder → Int
  | .scaling _ diff => diff
  | _ => 0

end Holder

/-- Each job that was accepted is in one place, in the order of the channel. -/
structure Jobs (accepted started jobQueue processed : List J) (team : List (Worker J)) : Prop where
  order : accepted = started ++ jobQueue
  once : (started : Multiset J) = processed + (team.map Worker.hand).sum

structure Counters (team : List (Worker J)) (workers wg idleWorkers : Int) (queueClosed : Bool) :
    Prop where
  workers : workers = team.countP Worker.isCounted
  wg : wg = team.countP Worker.isWaitedFor
  idle : queueClosed = false → idleWorkers = team.countP Worker.isIdle

/-- A worker is left, or will be when `ScaleWorkers` has returned, unless there are no jobs to
come. -/
def Live (team : List (Worker J)) (diff : Int) (queueClosed : Bool) (jobQueue : List J) : Prop :=
  1 ≤ (team.countP Worker.isLive : Int) + diff ∨ queueClosed = true ∧ jobQueue = []

section Team

variable {accepted started jobQueue processed : List J} {team : List (Worker J)} {i : Nat}
  {w : Worker J} {workers wg idle diff : Int} {queueClosed : Bool}

/-- A worker goes on from `w` to `w'` with the jobs of both accounted for. -/
theorem Jobs.move {accepted' started' jobQueue' processed' : List J}
    (h : Jobs accepted started jobQueue processed team) (hw : team[i]? = some w) (w' : Worker J)
    (horder : accepted' = started' ++ jobQueue')
    (honce : (started' : Multiset J) + processed + w.hand = started + processed' + w'.hand) :
    Jobs accepted' started' jobQueue' processed' (team.set i w') where
  order := horder
  once := by
    have hset := Bag.sum_map_set hw w' Worker.hand
    apply add_right_cancel (b := (processed : Multiset J) + w.hand)
    calc (started' : Multiset J) + (processed + w.hand)
        = started + processed' + w'.hand := by rw [← add_assoc, honce]
      _ = processed' + ((team.map Worker.hand).sum + w'.hand) + processed := by
        rw [h.once]
        abel
      _ = processed' + ((team.set i w').map Worker.hand).sum + (processed + w.hand) := by
        rw [← hset]
        abel

theorem Counters.move {workers' wg' idle' : Int}
    (h : Counters team workers wg idle queueClosed) (hw : team[i]? = some w) (w' : Worker J)
    (hworkers : workers' + w.isCounted.toInt = workers + w'.isCounted.toInt)
    (hwg : wg' + w.isWaitedFor.toInt = wg + w'.isWaitedFor.toInt)
    (hidle : queueClosed = false → idle' + w.isIdle.toInt = idle + w'.isIdle.toInt) :
    Counters (team.set i w') workers' wg' idle' queueClosed where
  workers := by
    have hset := Bag.countP_set_toInt hw w' Worker.isCounted
    have := h.workers
    omega
  wg := by
    have hset := Bag.countP_set_toInt hw w' Worker.isWaitedFor
    have := h.wg
    omega
  idle hopen := by
    have hset := Bag.countP_set_toInt hw w' Worker.isIdle
    have := h.idle hopen
    have := hidle hopen
    omega

theorem Live.move {jobQueue' : List J} (h : Live team diff queueClosed jobQueue)
    (hw : team[i]? = some w) (w' : Worker J) (hlive : w'.isLive = w.isLive)
    (hqueue : jobQueue = [] → jobQueue' = []) :
    Live (team.set i w') diff queueClosed jobQueue' := by
  rcases h with h | ⟨hclosed, hempty⟩
  · left
    have hset := Bag.countP_set hw w' Worker.isLive
    rw [hlive] at hset
    omega
  · exact .inr ⟨hclosed, hqueue hempty⟩

theorem Jobs.all_processed (h : Jobs accepted started jobQueue processed team)
    (hcounters : Counters team workers wg idle queueClosed)
    (hlive : Live team 0 queueClosed jobQueue) (hwg : wg = 0) :
    (accepted : Multiset J) = processed := by
  have hnone : ∀ w ∈ team, w.isWaitedFor = false := by
    have hcount : team.countP Worker.isWaitedFor = 0 := by
      have := hcounters.wg
      omega
    simpa [List.countP_eq_zero] using hcount
  have hhands : (team.map Worker.hand).sum = 0 := by
    refine List.sum_eq_zero fun jobs hjobs => ?_
    obtain ⟨w, hw, rfl⟩ := List.mem_map.1 hjobs
    exact Worker.hand_of_not_isWaitedFor (hnone w hw)
  rcases hlive with hlive | ⟨-, hempty⟩
  · obtain ⟨w, hw, hwlive⟩ : ∃ w ∈ team, w.isLive = true := List.countP_pos_iff.1 (by omega)
    exact absurd (Worker.isWaitedFor_of_isLive hwlive) (by simp [hnone w hw])
  · rw [h.order, hempty, List.append_nil, h.once, hhands, add_zero]

end Team

/-! ## The steps -/

/-- The steps of a worker. -/
inductive WorkerMoves (p : Pool J) (i : Nat) : Pool J → Prop where
  | countIdle : p.team[i]? = some .starting → WorkerMoves p i
      { p with idleWorkers := p.idleWorkers + 1, team := p.team.set i .selecting }
  | takeJob {j : J} {jobs : List J} : p.team[i]? = some .selecting → p.jobQueue = j :: jobs →
      WorkerMoves p i { p with
        jobQueue := jobs
        started := p.started ++ [j]
        team := p.team.set i (.received j) }
  | queueClosed : p.team[i]? = some .selecting → p.jobQueue = [] → p.jobQueueClosed = true →
      WorkerMoves p i { p with team := p.team.set i .returning }
  | begin {j : J} : p.team[i]? = some (.received j) → WorkerMoves p i
      { p with idleWorkers := p.idleWorkers - 1, team := p.team.set i (.processing j) }
  | processReturns {j : J} : p.team[i]? = some (.processing j) → WorkerMoves p i
      { p with processed := p.processed ++ [j], team := p.team.set i .starting }
  | stop : p.team[i]? = some .stopping → WorkerMoves p i
      { p with idleWorkers := p.idleWorkers - 1, team := p.team.set i .returning }
  | done : p.team[i]? = some .returning → WorkerMoves p i
      { p with wg := p.wg - 1, team := p.team.set i .leaving }
  | leave : p.team[i]? = some .leaving → WorkerMoves p i
      { p with workers := p.workers - 1, team := p.team.set i .exited }

namespace Pool

variable {p p' : Pool J} {i : Nat} {w w' : Worker J}

theorem workerMoves_of_workerStep {a : WorkerAct} (h : p.workerStep i a = some p') :
    WorkerMoves p i p' := by
  unfold workerStep at h
  split at h
  · next hw =>
    cases h
    exact .countIdle hw
  · next hw =>
    split at h
    · cases h
    · next hqueue =>
      cases h
      exact .takeJob hw hqueue
  · next hw =>
    split at h
    · next hqueue hclosed =>
      cases h
      exact .queueClosed hw hqueue hclosed
    · cases h
  · next hw =>
    cases h
    exact .begin hw
  · next hw =>
    cases h
    exact .processReturns hw
  · next hw =>
    cases h
    exact .stop hw
  · next hw =>
    cases h
    exact .done hw
  · next hw =>
    cases h
    exact .leave hw
  · cases h

structure Inv (p : Pool J) : Prop where
  jobs : Jobs p.accepted p.started p.jobQueue p.processed p.team
  counters : Counters p.team p.workers p.wg p.idleWorkers p.jobQueueClosed
  phase : p.holder.Phase p.closeCtxDone p.jobQueueClosed
  live : Live p.team p.holder.diff p.jobQueueClosed p.jobQueue
  gone : p.holder = .none → p.jobQueueClosed = true → p.wg = 0

/-- A worker step, with what it does to the jobs and the counters. -/
theorem Inv.moveWorker (h : p.Inv) (hw : p.team[i]? = some w)
    {jobQueue started processed : List J} {workers idleWorkers wg : Int}
    (hdown : w'.isWaitedFor = true → w.isWaitedFor = true)
    (hjobs : Jobs p.accepted started jobQueue processed (p.team.set i w'))
    (hcounters : Counters (p.team.set i w') workers wg idleWorkers p.jobQueueClosed)
    (hlive : Live (p.team.set i w') p.holder.diff p.jobQueueClosed jobQueue) :
    Inv { p with
      jobQueue, started, processed, workers, idleWorkers, wg
      team := p.team.set i w' } where
  jobs := hjobs
  counters := hcounters
  phase := h.phase
  live := hlive
  gone hnone hclosed := by
    have hwg := h.gone hnone hclosed
    have hset := Bag.countP_set_toInt hw w' Worker.isWaitedFor
    have hbefore := h.counters.wg
    have hafter := hcounters.wg
    have hle : w'.isWaitedFor.toInt ≤ w.isWaitedFor.toInt := by
      cases hw' : w'.isWaitedFor with
      | false => cases w.isWaitedFor <;> decide
      | true => rw [hdown hw']
    show wg = 0
    omega

theorem Inv.workerStep (h : p.Inv) (hmoves : WorkerMoves p i p') : p'.Inv := by
  have hjobs := h.jobs
  have hcounters := h.counters
  cases hmoves with
  | countIdle hw =>
    exact h.moveWorker hw (fun _ => rfl) (hjobs.move hw _ hjobs.order rfl)
      (hcounters.move hw _ rfl rfl fun _ => by simp [Worker.isIdle]) (h.live.move hw _ rfl id)
  | @takeJob j jobs hw hqueue =>
    have horder : p.accepted = p.started ++ [j] ++ jobs := by rw [hjobs.order, hqueue]; simp
    refine h.moveWorker hw (fun _ => rfl) (hjobs.move hw _ horder ?_)
      (hcounters.move hw _ rfl rfl fun _ => rfl) (h.live.move hw _ rfl (by simp [hqueue]))
    rw [Bag.coe_append_singleton]
    simp only [Worker.hand]
    abel
  | queueClosed hw hqueue hclosed =>
    exact h.moveWorker hw (fun _ => rfl) (hjobs.move hw _ hjobs.order rfl)
      (hcounters.move hw _ rfl rfl fun hopen => by rw [hclosed] at hopen; cases hopen)
      (.inr ⟨hclosed, hqueue⟩)
  | begin hw =>
    exact h.moveWorker hw (fun _ => rfl) (hjobs.move hw _ hjobs.order rfl)
      (hcounters.move hw _ rfl rfl fun _ => by simp [Worker.isIdle]) (h.live.move hw _ rfl id)
  | processReturns hw =>
    refine h.moveWorker hw (fun _ => rfl) (hjobs.move hw _ hjobs.order ?_)
      (hcounters.move hw _ rfl rfl fun _ => rfl) (h.live.move hw _ rfl id)
    rw [Bag.coe_append_singleton]
    simp only [Worker.hand]
    abel
  | stop hw =>
    exact h.moveWorker hw (fun _ => rfl) (hjobs.move hw _ hjobs.order rfl)
      (hcounters.move hw _ rfl rfl fun _ => by simp [Worker.isIdle]) (h.live.move hw _ rfl id)
  | done hw =>
    exact h.moveWorker hw (fun _ => rfl) (hjobs.move hw _ hjobs.order rfl)
      (hcounters.move hw _ rfl (by simp [Worker.isWaitedFor]) fun _ => rfl)
      (h.live.move hw _ rfl id)
  | leave hw =>
    exact h.moveWorker hw (fun h => h) (hjobs.move hw _ hjobs.order rfl)
      (hcounters.move hw _ (by simp [Worker.isCounted]) rfl fun _ => rfl)
      (h.live.move hw _ rfl id)

/-! ## Calls of `AddJob` -/

theorem accepted_addReturns_none (i : Nat) (j : J) :
    (p.addReturns i j none).accepted = p.accepted ++ [j] := by
  simp [accepted, addReturns]

theorem accepted_addReturns_some (i : Nat) (j : J) (err : Err) :
    (p.addReturns i j (some err)).accepted = p.accepted := by
  simp [accepted, addReturns]

theorem Inv.addReturns (h : p.Inv) (i : Nat) (j : J) (err : Err) :
    (p.addReturns i j (some err)).Inv where
  jobs := by
    rw [accepted_addReturns_some]
    exact h.jobs
  counters := h.counters
  phase := h.phase
  live := h.live
  gone := h.gone

theorem Inv.sendJob (h : p.Inv) {j : J} {worker : Option Nat}
    (hsend : p.sendJob i j worker = some p') : p'.Inv := by
  unfold Pool.sendJob at hsend
  split at hsend
  · cases hsend
    exact ⟨h.jobs, h.counters, h.phase, h.live, h.gone⟩
  · next hopen =>
    have hopen : p.jobQueueClosed = false := by simpa using hopen
    have hlive : 1 ≤ (p.team.countP Worker.isLive : Int) + p.holder.diff := by
      rcases h.live with hlive | ⟨hclosed, -⟩
      · exact hlive
      · rw [hopen] at hclosed
        cases hclosed
    split at hsend
    · split at hsend
      · cases hsend
        refine ⟨⟨?_, h.jobs.once⟩, h.counters, h.phase, .inl hlive, h.gone⟩
        rw [accepted_addReturns_none]
        show p.accepted ++ [j] = p.started ++ (p.jobQueue ++ [j])
        rw [h.jobs.order, List.append_assoc]
      · cases hsend
    · split at hsend
      · next hw hqueue =>
        cases hsend
        refine ⟨?_, h.counters.move hw _ rfl rfl fun _ => rfl, h.phase,
          h.live.move hw _ rfl id, h.gone⟩
        refine h.jobs.move hw _ ?_ ?_
        · rw [accepted_addReturns_none]
          show p.accepted ++ [j] = p.started ++ [j] ++ p.jobQueue
          rw [h.jobs.order, hqueue, List.append_nil, List.append_nil]
        · show ((p.started ++ [j] : List J) : Multiset J) + p.processed + 0 =
            p.started + p.processed + {j}
          rw [Bag.coe_append_singleton]
          abel
      · cases hsend

theorem Inv.addStep (h : p.Inv) {call : AddCall J} {a : AddJobAct}
    (hstep : p.addStep i call a = some p') : p'.Inv := by
  unfold Pool.addStep at hstep
  split at hstep
  · split at hstep
    · cases hstep
      exact h.addReturns ..
    · cases hstep
      exact ⟨h.jobs, h.counters, h.phase, h.live, h.gone⟩
  · split at hstep
    · cases hstep
      exact h.addReturns ..
    · cases hstep
  · exact h.sendJob hstep
  · cases hstep
    exact h.addReturns ..
  · cases hstep

/-! ## `ScaleWorkers` and `Close` -/

theorem countP_isLive_of_settled (h : ∀ w ∈ p.team, w.isCounted = true → w.isLive = true) :
    p.team.countP Worker.isLive = p.team.countP Worker.isCounted := by
  refine List.countP_congr fun w hw => ⟨fun hlive => ?_, h w hw⟩
  cases w <;> first | rfl | cases hlive

theorem Inv.scaleWorkers (h : p.Inv) {totalWorkers : Int}
    (hsettled : p.Settled (.scaleWorkers totalWorkers))
    (hstep : p.scaleWorkers totalWorkers = some p') : p'.Inv := by
  unfold Pool.scaleWorkers at hstep
  dsimp only at hstep
  split at hstep
  · cases hstep
    exact ⟨h.jobs, h.counters, h.phase, h.live, h.gone⟩
  · next hmin =>
    split at hstep
    · next hnone =>
      split at hstep
      · cases hstep
        exact ⟨h.jobs, h.counters, h.phase, h.live, h.gone⟩
      · next hctx =>
        cases hstep
        have hctx : p.closeCtxDone = false := by simpa using hctx
        have hphase : p.closeCtxDone = p.jobQueueClosed := by
          simpa [hnone, Holder.Phase] using h.phase
        refine ⟨h.jobs, h.counters, ⟨hctx, hphase ▸ hctx⟩, .inl ?_, fun h => by cases h⟩
        -- the count is that of the workers that are left, since none was told to stop
        rw [countP_isLive_of_settled hsettled]
        have hcount := h.counters.workers
        show 1 ≤ (p.team.countP Worker.isCounted : Int) + (totalWorkers - p.workers)
        omega
    · cases hstep

theorem Inv.close (h : p.Inv) (hstep : p.close = some p') : p'.Inv := by
  unfold Pool.close at hstep
  split at hstep
  · next hnone =>
    split at hstep
    · cases hstep
      exact h
    · next hctx =>
      cases hstep
      have hctx : p.closeCtxDone = false := by simpa using hctx
      have hphase : p.closeCtxDone = p.jobQueueClosed := by
        simpa [hnone, Holder.Phase] using h.phase
      have hlive := h.live
      rw [hnone] at hlive
      exact ⟨h.jobs, h.counters, ⟨hctx, hphase ▸ hctx⟩, hlive, fun h => by cases h⟩
  · cases hstep

theorem Inv.startWorker (h : p.Inv) {totalWorkers diff : Int}
    (hholder : p.holder = .scaling totalWorkers diff) :
    Inv { p.startWorker with holder := .scaling totalWorkers (diff - 1) } := by
  have hlive := h.live
  have hphase := h.phase
  rw [hholder] at hlive hphase
  refine ⟨⟨h.jobs.order, ?_⟩, ⟨?_, ?_, fun hopen => ?_⟩, hphase, .inl ?_, fun h => by cases h⟩
  · simpa [Pool.startWorker, Worker.hand] using h.jobs.once
  · simp [Pool.startWorker, Worker.isCounted, h.counters.workers]
  · simp [Pool.startWorker, Worker.isWaitedFor, h.counters.wg]
  · simpa [Pool.startWorker, Worker.isIdle] using h.counters.idle hopen
  · rcases hlive with hlive | ⟨hclosed, -⟩
    · simp only [Holder.diff] at hlive
      simp [Pool.startWorker, Worker.isLive, Holder.diff]
      omega
    · rw [hphase.2] at hclosed
      cases hclosed

theorem Inv.stopWorker (h : p.Inv) {totalWorkers diff : Int}
    (hholder : p.holder = .scaling totalWorkers diff) (hw : p.team[i]? = some .selecting) :
    Inv { p with team := p.team.set i .stopping, holder := .scaling totalWorkers (diff + 1) } := by
  have hlive := h.live
  have hphase := h.phase
  rw [hholder] at hlive hphase
  refine ⟨h.jobs.move hw _ h.jobs.order rfl, h.counters.move hw _ rfl rfl fun _ => rfl, hphase,
    .inl ?_, fun h => by cases h⟩
  rcases hlive with hlive | ⟨hclosed, -⟩
  · have hset := Bag.countP_set_toInt hw .stopping Worker.isLive
    simp only [Worker.isLive, Bool.toInt_true, Bool.toInt_false] at hset
    simp only [Holder.diff] at hlive ⊢
    omega
  · rw [hphase.2] at hclosed
    cases hclosed

theorem Inv.holderStep (h : p.Inv) {a : HolderAct} (hstep : p.holderStep a = some p') :
    p'.Inv := by
  have hphase := h.phase
  have hlive := h.live
  unfold Pool.holderStep at hstep
  split at hstep
  · next hholder =>
    split at hstep
    · cases hstep
      exact h.startWorker hholder
    · cases hstep
  · next hholder =>
    split at hstep
    · next hw =>
      split at hstep
      · cases hstep
        exact h.stopWorker hholder hw
      · cases hstep
    · cases hstep
  · next hholder =>
    split at hstep
    · next hdiff =>
      cases hstep
      rw [hholder] at hphase hlive
      refine ⟨h.jobs, h.counters, hphase.1.trans hphase.2.symm, ?_, fun _ hclosed => ?_⟩
      · simpa [Holder.diff, hdiff] using hlive
      · rw [hphase.2] at hclosed
        cases hclosed
    · cases hstep
  · next hholder =>
    cases hstep
    rw [hholder] at hphase hlive
    exact ⟨h.jobs, h.counters, ⟨rfl, hphase.2⟩, hlive, fun h => by cases h⟩
  · next hholder =>
    cases hstep
    rw [hholder] at hphase hlive
    exact ⟨h.jobs, h.counters, hphase, hlive, fun h => by cases h⟩
  · next hholder =>
    cases hstep
    rw [hholder] at hphase hlive
    refine ⟨h.jobs, h.counters, ?_, ?_, fun h => ?_⟩
    · split <;> exact hphase
    · split <;> exact hlive
    · split at h <;> cases h
  · next hholder =>
    cases hstep
    rw [hholder] at hphase hlive
    refine ⟨h.jobs, ⟨h.counters.workers, h.counters.wg, fun h => by cases h⟩, ⟨hphase.1, rfl⟩, ?_,
      fun h => by cases h⟩
    rcases hlive with hlive | ⟨hclosed, -⟩
    · exact .inl hlive
    · rw [hphase.2] at hclosed
      cases hclosed
  · next hholder =>
    split at hstep
    · next hwg =>
      cases hstep
      rw [hholder] at hphase hlive
      exact ⟨h.jobs, h.counters, hphase.1.trans hphase.2.symm, hlive, fun _ _ => hwg⟩
    · cases hstep
  · cases hstep

theorem Inv.step (h : p.Inv) {a : PoolAct J} (hsettled : p.Settled a)
    (hstep : p.step a = some p') : p'.Inv := by
  unfold Pool.step at hstep
  split at hstep
  · cases hstep
  · cases a with
    | addJob j =>
      cases hstep
      exact ⟨h.jobs, h.counters, h.phase, h.live, h.gone⟩
    | scaleWorkers totalWorkers => exact h.scaleWorkers hsettled hstep
    | close => exact h.close hstep
    | addStep i a =>
      obtain ⟨call, -, hstep⟩ := Option.bind_eq_some_iff.1 hstep
      exact h.addStep hstep
    | workerStep i a => exact h.workerStep (workerMoves_of_workerStep hstep)
    | holderStep a => exact h.holderStep hstep

theorem Inv.safe (h : p.Inv) : p.Safe where
  order := h.jobs.order
  once := h.jobs.once
  closed := by
    rintro ⟨hnone, hctx⟩
    have hphase := h.phase
    have hlive := h.live
    rw [hnone] at hphase hlive
    have hclosed : p.jobQueueClosed = true := hphase.symm.trans hctx
    exact h.jobs.all_processed h.counters hlive (h.gone hnone hclosed)

/-! ## `Close` returns -/

end Pool

/-- The steps that the worker can take at most, without new jobs. A job that it receives is worth
four. -/
def Worker.weight : Worker J → Nat
  | .exited => 0
  | .leaving => 1
  | .returning => 2
  | .selecting | .stopping => 3
  | .starting => 4
  | .processing _ => 5
  | .received _ => 6

namespace Pool

variable {p p' : Pool J} {i : Nat}

def weight (p : Pool J) : Nat := 4 * p.jobQueue.length + (p.team.map Worker.weight).sum

theorem sum_weight_set {w : Worker J} (hw : p.team[i]? = some w) (w' : Worker J) :
    ((p.team.set i w').map Worker.weight).sum + w.weight =
      (p.team.map Worker.weight).sum + w'.weight :=
  Bag.sum_map_set hw w' Worker.weight

theorem weight_set_lt {w w' : Worker J} (hw : p.team[i]? = some w) (hlt : w'.weight < w.weight) :
    4 * p.jobQueue.length + ((p.team.set i w').map Worker.weight).sum < p.weight := by
  have hsum := sum_weight_set hw w'
  rw [weight]
  omega

theorem weight_lt (h : WorkerMoves p i p') : p'.weight < p.weight := by
  cases h with
  | @takeJob j jobs hw hqueue =>
    have hsum := sum_weight_set hw (.received j)
    simp only [weight, Worker.weight, hqueue, List.length_cons] at hsum ⊢
    omega
  | countIdle hw => exact weight_set_lt hw (by simp [Worker.weight])
  | queueClosed hw => exact weight_set_lt hw (by simp [Worker.weight])
  | begin hw => exact weight_set_lt hw (by simp [Worker.weight])
  | processReturns hw => exact weight_set_lt hw (by simp [Worker.weight])
  | stop hw => exact weight_set_lt hw (by simp [Worker.weight])
  | done hw => exact weight_set_lt hw (by simp [Worker.weight])
  | leave hw => exact weight_set_lt hw (by simp [Worker.weight])

theorem Finishes.of_step {a : PoolAct J} (hstep : p.step a = some p') (ha : a.IsInternal)
    (h : p'.Finishes) : p.Finishes := by
  obtain ⟨acts, hacts, halong, hclosed⟩ := h
  have hnext : p.next a = p' := by rw [next, hstep]; rfl
  refine ⟨a :: acts, List.forall_mem_cons.2 ⟨ha, hacts⟩, ⟨?_, hnext ▸ halong⟩, ?_⟩
  · rw [Enabled, hstep]
    rfl
  · rw [List.foldl_cons, hnext]
    exact hclosed

/-- No worker can take a step: each has left or waits for a job. -/
def Quiet (p : Pool J) : Prop :=
  ∀ w ∈ p.team, w = .exited ∨ w = .selecting ∧ p.jobQueue = [] ∧ p.jobQueueClosed = false

theorem quiet_or_workerStep (p : Pool J) : p.Quiet ∨ ∃ i a p', p.workerStep i a = some p' := by
  by_contra hcon
  rw [not_or] at hcon
  obtain ⟨hquiet, hstuck⟩ := hcon
  refine hquiet fun w hw => ?_
  obtain ⟨i, hi⟩ := List.mem_iff_getElem?.1 hw
  have hno : ∀ a p', p.workerStep i a ≠ some p' := fun a p' h => hstuck ⟨i, a, p', h⟩
  cases w with
  | exited => exact .inl rfl
  | starting => exact absurd (by simp only [workerStep, hi]; rfl) (hno .countIdle _)
  | received j => exact absurd (by simp only [workerStep, hi]; rfl) (hno .countBusy _)
  | processing j => exact absurd (by simp only [workerStep, hi]; rfl) (hno .processReturns _)
  | stopping => exact absurd (by simp only [workerStep, hi]; rfl) (hno .countBusy _)
  | returning => exact absurd (by simp only [workerStep, hi]; rfl) (hno .done _)
  | leaving => exact absurd (by simp only [workerStep, hi]; rfl) (hno .leave _)
  | selecting =>
    cases hqueue : p.jobQueue with
    | cons j jobs => exact absurd (by simp only [workerStep, hi, hqueue]; rfl) (hno .takeJob _)
    | nil =>
      cases hclosed : p.jobQueueClosed with
      | true =>
        exact absurd (by simp only [workerStep, hi, hqueue, hclosed]; rfl) (hno .queueClosed _)
      | false => exact .inr ⟨rfl, rfl, rfl⟩

/-- The workers go on until none of them can; then it is the turn of `Close`. -/
theorem finishes_of_quiet (holder : Holder)
    (hquiet : ∀ p : Pool J, p.Inv → p.crashed = false → p.holder = holder → p.Quiet → p.Finishes)
    (hinv : p.Inv) (hrun : p.crashed = false) (hholder : p.holder = holder) : p.Finishes := by
  induction hweight : p.weight using Nat.strongRecOn generalizing p with
  | ind n ih =>
    rcases p.quiet_or_workerStep with hq | ⟨i, a, p', hstep⟩
    · exact hquiet p hinv hrun hholder hq
    · have hmoves := workerMoves_of_workerStep hstep
      have hlt := weight_lt hmoves
      have hsame : p'.crashed = p.crashed ∧ p'.holder = p.holder := by
        cases hmoves <;> exact ⟨rfl, rfl⟩
      refine .of_step (a := .workerStep i a) ?_ trivial
        (ih p'.weight (hweight ▸ hlt) (hinv.workerStep hmoves) (hsame.1.trans hrun)
          (hsame.2.trans hholder) rfl)
      simp only [step, hrun]
      exact hstep

theorem finishes_of_holderStep (hrun : p.crashed = false) {a : HolderAct}
    (hstep : p.holderStep a = some p') (h : p'.Finishes) : p.Finishes := by
  refine .of_step (a := .holderStep a) ?_ trivial h
  simp only [step, hrun]
  exact hstep

theorem finishes_waiting (hinv : p.Inv) (hrun : p.crashed = false) (hholder : p.holder = .waiting) :
    p.Finishes := by
  refine finishes_of_quiet .waiting (fun p hinv hrun hholder hquiet => ?_) hinv hrun hholder
  have hphase := hinv.phase
  rw [hholder] at hphase
  have hcount : p.team.countP Worker.isWaitedFor = 0 := by
    refine List.countP_eq_zero.2 fun w hw => ?_
    rcases hquiet w hw with rfl | ⟨-, -, hopen⟩
    · simp [Worker.isWaitedFor]
    · rw [hphase.2] at hopen
      cases hopen
  have hwg : p.wg = 0 := by rw [hinv.counters.wg, hcount]; rfl
  have hstep : p.holderStep .wait = some { p with holder := .none } := by
    simp only [holderStep, hholder, hwg, if_true]
  exact finishes_of_holderStep hrun hstep ⟨[], by simp, trivial, rfl, hphase.1⟩

theorem finishes_closingQueue (hinv : p.Inv) (hrun : p.crashed = false)
    (hholder : p.holder = .closingQueue) : p.Finishes := by
  have hstep : p.holderStep .closeQueue =
      some { p with jobQueueClosed := true, holder := .waiting } := by
    simp only [holderStep, hholder]
  exact finishes_of_holderStep hrun hstep (finishes_waiting (hinv.holderStep hstep) hrun rfl)

theorem Inv.idleWorkers_eq (h : p.Inv) (hquiet : p.Quiet) (hopen : p.jobQueueClosed = false) :
    p.idleWorkers = p.workers := by
  rw [h.counters.workers, h.counters.idle hopen]
  congr 1
  refine List.countP_congr fun w hw => ?_
  rcases hquiet w hw with rfl | ⟨rfl, -⟩ <;> simp [Worker.isIdle, Worker.isCounted]

theorem finishes_loadingIdle (hinv : p.Inv) (hrun : p.crashed = false)
    (hholder : p.holder = .loadingIdle) : p.Finishes := by
  refine finishes_of_quiet .loadingIdle (fun p hinv hrun hholder hquiet => ?_) hinv hrun hholder
  have hphase := hinv.phase
  rw [hholder] at hphase
  have hload :
      p.holderStep .loadIdle = some { p with holder := .loadingWorkers p.idleWorkers } := by
    simp only [holderStep, hholder]
  have hcompare : { p with holder := .loadingWorkers p.idleWorkers }.holderStep .loadWorkers =
      some { p with holder := .closingQueue } := by
    have hnot : ¬ p.workers < p.workers := lt_irrefl _
    simp only [holderStep, hinv.idleWorkers_eq hquiet hphase.2, if_neg hnot]
  have hinv' := hinv.holderStep hload
  exact finishes_of_holderStep hrun hload (finishes_of_holderStep hrun hcompare
    (finishes_closingQueue (hinv'.holderStep hcompare) hrun rfl))

theorem Inv.finishes (hinv : p.Inv) (hrun : p.crashed = false) (hclosing : p.Closing) :
    p.Finishes := by
  unfold Closing at hclosing
  cases hholder : p.holder with
  | none => simp [hholder] at hclosing
  | scaling totalWorkers diff => simp [hholder] at hclosing
  | cancelling =>
    have hstep : p.holderStep .cancelAddJobs =
        some { p with closeCtxDone := true, holder := .loadingIdle } := by
      simp only [Pool.holderStep, hholder]
    exact finishes_of_holderStep hrun hstep (finishes_loadingIdle (hinv.holderStep hstep) hrun rfl)
  | loadingIdle => exact finishes_loadingIdle hinv hrun hholder
  | loadingWorkers idle =>
    have hstep : p.holderStep .loadWorkers =
        some { p with holder := if idle < p.workers then .loadingIdle else .closingQueue } := by
      simp only [Pool.holderStep, hholder]
    refine finishes_of_holderStep hrun hstep ?_
    have hinv' := hinv.holderStep hstep
    -- the count was loaded earlier, so either can follow
    by_cases hidle : idle < p.workers
    · exact finishes_loadingIdle hinv' hrun (if_pos hidle)
    · exact finishes_closingQueue hinv' hrun (if_neg hidle)
  | closingQueue => exact finishes_closingQueue hinv hrun hholder
  | waiting => exact finishes_waiting hinv hrun hholder

/-! ## Runs -/

theorem iterate_startWorker (n : Nat) (p : Pool J) :
    startWorker^[n] p = { p with
      workers := p.workers + n
      wg := p.wg + n
      team := p.team ++ List.replicate n .starting } := by
  induction n generalizing p with
  | zero => simp
  | succ n ih =>
    rw [Function.iterate_succ_apply, ih, startWorker]
    simp [List.replicate_succ, add_assoc, add_comm (1 : Int)]

theorem inv_newPool (maxOpenJobs : Nat) (startingWorkers : Int) :
    (newPool maxOpenJobs startingWorkers : Pool J).Inv := by
  have hpos : 1 ≤ (max 1 startingWorkers).toNat := by omega
  rw [newPool, iterate_startWorker]
  generalize (max 1 startingWorkers).toNat = n at hpos
  refine ⟨⟨rfl, ?_⟩, ⟨?_, ?_, fun _ => ?_⟩, rfl, .inl ?_, fun _ h => by cases h⟩
  · simp [Worker.hand]
  · simp [List.countP_replicate, Worker.isCounted]
  · simp [List.countP_replicate, Worker.isWaitedFor]
  · simp [List.countP_replicate, Worker.isIdle]
  · simp [List.countP_replicate, Worker.isLive, Holder.diff]
    omega

theorem inv_of_settled {maxOpenJobs : Nat} {startingWorkers : Int} {acts : List (PoolAct J)}
    (henabled : Trace.Along next Enabled (newPool maxOpenJobs startingWorkers) acts)
    (hsettled : Trace.Along next Settled (newPool maxOpenJobs startingWorkers) acts) :
    Trace.Always next Inv (newPool maxOpenJobs startingWorkers) acts := by
  refine Trace.always_of_step (fun p a hinv (h : p.Enabled a ∧ p.Settled a) => ?_)
    (inv_newPool maxOpenJobs startingWorkers) (henabled.and hsettled)
  obtain ⟨p', hp'⟩ := Option.isSome_iff_exists.1 h.1
  rw [next, hp']
  exact hinv.step h.2 hp'

end Pool

/-- In every interleaving of the calls and the workers in which no `ScaleWorkers` begins while a
worker that was told to stop is still counted: jobs are started in the order in which they were
accepted, none is lost or processed twice, all are processed when `Close` returns, and once `Close`
has begun it can return without help from outside. -/
theorem pool_safe {maxOpenJobs : Nat} {startingWorkers : Int} {acts : List (PoolAct J)}
    (henabled : Trace.Along Pool.next Pool.Enabled (newPool maxOpenJobs startingWorkers) acts)
    (hsettled : Trace.Along Pool.next Pool.Settled (newPool maxOpenJobs startingWorkers) acts) :
    Trace.Always Pool.next
      (fun p => p.Safe ∧ (p.crashed = false → p.Closing → p.Finishes))
      (newPool maxOpenJobs startingWorkers) acts :=
  (Pool.inv_of_settled henabled hsettled).mono fun _ hinv => ⟨hinv.safe, hinv.finishes⟩

/-- A pool of two workers takes a job, is scaled down to one worker and is closed. -/
def scaledDown : List (PoolAct Nat) :=
  [.workerStep 0 .countIdle, .workerStep 1 .countIdle, .addJob 7, .addStep 0 .check,
    .addStep 0 (.send none), .scaleWorkers 1, .holderStep (.stopWorker 1),
    .holderStep .finishScaling, .workerStep 0 .takeJob, .close, .holderStep .cancelAddJobs,
    .workerStep 0 .countBusy, .workerStep 0 .processReturns, .workerStep 0 .countIdle,
    .workerStep 1 .countBusy, .workerStep 1 .done, .workerStep 1 .leave, .holderStep .loadIdle,
    .holderStep .loadWorkers, .holderStep .closeQueue, .workerStep 0 .queueClosed,
    .workerStep 0 .done, .holderStep .wait]

theorem pool_safe_scaledDown :
    (scaledDown.foldl Pool.next (newPool 3 2)).Closed ∧
      (scaledDown.foldl Pool.next (newPool 3 2)).Safe :=
  ⟨by decide, (pool_safe (by decide) (by decide)).last.1⟩

/-- A second call that scales the pool down to one worker before the first worker is counted out. -/
def scaledDownTwice : List (PoolAct Nat) :=
  [.workerStep 0 .countIdle, .workerStep 1 .countIdle, .scaleWorkers 1,
    .holderStep (.stopWorker 1), .holderStep .finishScaling, .scaleWorkers 1,
    .holderStep (.stopWorker 0), .holderStep .finishScaling, .workerStep 0 .countBusy,
    .workerStep 0 .done, .workerStep 0 .leave, .workerStep 1 .countBusy, .workerStep 1 .done,
    .workerStep 1 .leave, .addJob 7, .addStep 0 .check, .addStep 0 (.send none), .close,
    .holderStep .cancelAddJobs, .holderStep .loadIdle, .holderStep .loadWorkers,
    .holderStep .closeQueue, .holderStep .wait]

/-- No worker is left, and the job that was accepted is lost. -/
example :
    Trace.Along Pool.next Pool.Enabled (newPool 3 2) scaledDownTwice ∧
      (scaledDownTwice.foldl Pool.next (newPool 3 2)).Closed ∧
      (scaledDownTwice.foldl Pool.next (newPool 3 2)).accepted = [7] ∧
      (scaledDownTwice.foldl Pool.next (newPool 3 2)).processed = [] := by
  decide

end Work
