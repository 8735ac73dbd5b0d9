import Mathlib.Algebra.Order.Group.Multiset
import OpenPCC.Go.Error
import OpenPCC.Lib.Trace

/-!
# The pool of workers (`work/pool.go`)

The goroutines are the workers, the calls of `AddJob`, and the call of `ScaleWorkers` or `Close`
that holds the lock. A step of the model is one operation of one of them on a channel, a counter,
the context or the wait group, or a call. `jobQueue` has room for `maxOpenJobs`; a job can also be
handed to a worker that waits for one, if the channel is empty. `scaleDown` has no buffer, so the
signal is a step of `ScaleWorkers` and of a worker. A send on a closed channel panics, which ends
the program.

A call that is in its `select` when the context is cancelled returns with `ErrPoolClosed`; one that
is between its check and the `select` can find both the context cancelled and the channel closed and
may choose either. The model does not tell the two apart.
-/

namespace Work

open Go

variable {J : Type}

/-- Where a worker is: before it counts itself as idle; in the `select`; with a job, before it
counts itself as busy; in `Process`; with the signal to stop, before it counts itself as busy; at
its end, before `wg.Done()` and before it is counted out. -/
inductive Worker (J : Type) where
  | starting
  | selecting
  | received (j : J)
  | processing (j : J)
  | stopping
  | returning
  | leaving
  | exited
  deriving DecidableEq

/-- A call of `AddJob`, before and after it has checked the context. -/
structure AddCall (J : Type) where
  job : J
  checked : Bool := false
  deriving DecidableEq

/-- What the holder of the lock is about to do: nobody holds it; start and stop workers until `diff`
is 0; cancel the context; compare the counters, of which the first may be loaded; close `jobQueue`;
wait for the workers. -/
inductive Holder where
  | none
  | scaling (totalWorkers diff : Int)
  | cancelling
  | loadingIdle
  | loadingWorkers (idleWorkers : Int)
  | closingQueue
  | waiting
  deriving DecidableEq

structure Pool (J : Type) where
  maxOpenJobs : Nat
  closeCtxDone : Bool := false
  jobQueue : List J := []
  jobQueueClosed : Bool := false
  workers : Int := 0
  idleWorkers : Int := 0
  wg : Int := 0
  /-- the goroutines of the workers -/
  team : List (Worker J) := []
  holder : Holder := .none
  /-- the calls of `AddJob` that have not returned -/
  calls : List (AddCall J) := []
  /-- the jobs of the calls that have returned, with the errors -/
  added : List (J × Option Err) := []
  /-- the calls of `ScaleWorkers` that have returned -/
  scaled : List (Int × Option Err) := []
  /-- the jobs that were received from `jobQueue` -/
  started : List J := []
  /-- the jobs of which `Process` has returned -/
  processed : List J := []
  crashed : Bool := false
  deriving DecidableEq

def errPoolClosed : Err := .new "work pool is closed" []

/-! ## The goroutines -/

inductive WorkerAct where
  /-- `idleWorkers.Add(1)` at the start of the loop -/
  | countIdle
  | takeJob
  | queueClosed
  /-- `idleWorkers.Add(-1)` with a job or with the signal to stop -/
  | countBusy
  | processReturns
  /-- `wg.Done()` -/
  | done
  /-- `workers.Add(-1)` -/
  | leave
  deriving DecidableEq

inductive AddJobAct where
  | check
  | closed
  /-- the job goes to the channel, or to the worker -/
  | send (worker : Option Nat)
  | cancelled (err : Err)
  deriving DecidableEq

inductive HolderAct where
  | startWorker
  | stopWorker (worker : Nat)
  | finishScaling
  | cancelAddJobs
  | loadIdle
  | loadWorkers
  | closeQueue
  | wait
  deriving DecidableEq

inductive PoolAct (J : Type) where
  | addJob (j : J)
  | scaleWorkers (totalWorkers : Int)
  | close
  | addStep (i : Nat) (a : AddJobAct)
  | workerStep (i : Nat) (a : WorkerAct)
  | holderStep (a : HolderAct)
  deriving DecidableEq

namespace Pool

variable (p : Pool J)

def startWorker : Pool J :=
  { p with workers := p.workers + 1, wg := p.wg + 1, team := p.team ++ [.starting] }

def workerStep (i : Nat) (a : WorkerAct) : Option (Pool J) :=
  match p.team[i]?, a with
  | some .starting, .countIdle =>
    some { p with idleWorkers := p.idleWorkers + 1, team := p.team.set i .selecting }
  | some .selecting, .takeJob =>
    match p.jobQueue with
    | [] => none
    | j :: jobs =>
      some { p with
        jobQueue := jobs
        started := p.started ++ [j]
        team := p.team.set i (.received j) }
  | some .selecting, .queueClosed =>
    -- the worker does not count itself as busy here
    match p.jobQueue, p.jobQueueClosed with
    | [], true => some { p with team := p.team.set i .returning }
    | _, _ => none
  | some (.received j), .countBusy =>
    some { p with idleWorkers := p.idleWorkers - 1, team := p.team.set i (.processing j) }
  | some (.processing j), .processReturns =>
    some { p with processed := p.processed ++ [j], team := p.team.set i .starting }
  | some .stopping, .countBusy =>
    some { p with idleWorkers := p.idleWorkers - 1, team := p.team.set i .returning }
  | some .returning, .done => some { p with wg := p.wg - 1, team := p.team.set i .leaving }
  | some .leaving, .leave => some { p with workers := p.workers - 1, team := p.team.set i .exited }
  | _, _ => none

/-- The `i`-th call of `AddJob` returns. -/
def addReturns (i : Nat) (j : J) (err : Option Err) : Pool J :=
  { p with calls := p.calls.eraseIdx i, added := p.added ++ [(j, err)] }

/-- The case `p.jobQueue <- j`. -/
def sendJob (i : Nat) (j : J) (worker : Option Nat) : Option (Pool J) :=
  if p.jobQueueClosed then some { p with crashed := true }
  else
    match worker with
    | none =>
      if p.jobQueue.length < p.maxOpenJobs then
        some ({ p with jobQueue := p.jobQueue ++ [j] }.addReturns i j none)
      else none
    | some w =>
      match p.team[w]?, p.jobQueue with
      | some .selecting, [] =>
        some ({ p with
          started := p.started ++ [j]
          team := p.team.set w (.received j) }.addReturns i j none)
      | _, _ => none

def addStep (i : Nat) (call : AddCall J) (a : AddJobAct) : Option (Pool J) :=
  match call.checked, a with
  | false, .check =>
    if p.closeCtxDone then some (p.addReturns i call.job (some errPoolClosed))
    else some { p with calls := p.calls.set i { call with checked := true } }
  | true, .closed =>
    if p.closeCtxDone then some (p.addReturns i call.job (some errPoolClosed)) else none
  | true, .send worker => p.sendJob i call.job worker
  | true, .cancelled err => some (p.addReturns i call.job (some err))
  | _, _ => none

/-- `ScaleWorkers` up to its loops; the check of its argument needs no lock. -/
def scaleWorkers (totalWorkers : Int) : Option (Pool J) :=
  if totalWorkers < 1 then
    let err : Err := .new "needs at least one worker, got %d" [.int totalWorkers]
    some { p with scaled := p.scaled ++ [(totalWorkers, some err)] }
  else
    match p.holder with
    | .none =>
      if p.closeCtxDone then
        some { p with scaled := p.scaled ++ [(totalWorkers, some errPoolClosed)] }
      else some { p with holder := .scaling totalWorkers (totalWorkers - p.workers) }
    | _ => none

/-- `Close` up to the cancellation of the context. -/
def close : Option (Pool J) :=
  match p.holder with
  | .none => if p.closeCtxDone then some p else some { p with holder := .cancelling }
  | _ => none

/-- The loops of `ScaleWorkers` and the rest of `Close`. -/
def holderStep (a : HolderAct) : Option (Pool J) :=
  match p.holder, a with
  | .scaling totalWorkers diff, .startWorker =>
    if 0 < diff then some { p.startWorker with holder := .scaling totalWorkers (diff - 1) }
    else none
  | .scaling totalWorkers diff, .stopWorker w =>
    match p.team[w]? with
    | some .selecting =>
      if diff < 0 then
        some { p with
          team := p.team.set w .stopping
          holder := .scaling totalWorkers (diff + 1) }
      else none
    | _ => none
  | .scaling totalWorkers diff, .finishScaling =>
    if diff = 0 then some { p with holder := .none, scaled := p.scaled ++ [(totalWorkers, none)] }
    else none
  | .cancelling, .cancelAddJobs => some { p with closeCtxDone := true, holder := .loadingIdle }
  | .loadingIdle, .loadIdle => some { p with holder := .loadingWorkers p.idleWorkers }
  | .loadingWorkers idle, .loadWorkers =>
    some { p with holder := if idle < p.workers then .loadingIdle else .closingQueue }
  | .closingQueue, .closeQueue => some { p with jobQueueClosed := true, holder := .waiting }
  | .waiting, .wait => if p.wg = 0 then some { p with holder := .none } else none
  | _, _ => none

def step (a : PoolAct J) : Option (Pool J) :=
  if p.crashed then none
  else
    match a with
    | .addJob j => some { p with calls := p.calls ++ [{ job := j }] }
    | .scaleWorkers totalWorkers => p.scaleWorkers totalWorkers
    | .close => p.close
    | .addStep i a => do
      let call ← p.calls[i]?
      p.addStep i call a
    | .workerStep i a => p.workerStep i a
    | .holderStep a => p.holderStep a

/-- The act can happen. -/
def Enabled (a : PoolAct J) : Prop := (p.step a).isSome

instance (a : PoolAct J) : Decidable (p.Enabled a) :=
  inferInstanceAs (Decidable ((p.step a).isSome = true))

def next (a : PoolAct J) : Pool J := (p.step a).getD p

end Pool

def newPool (maxOpenJobs : Nat) (startingWorkers : Int) : Pool J :=
  Pool.startWorker^[(max 1 startingWorkers).toNat] { maxOpenJobs }

/-! ## Jobs -/

namespace Worker

/-- The job that the worker has and has not processed. -/
def hand : Worker J → Multiset J
  | .received j | .processing j => {j}
  | _ => 0

/-- The worker will wait for another job. -/
def isLive : Worker J → Bool
  | .starting | .selecting | .received _ | .processing _ => true
  | .stopping | .returning | .leaving | .exited => false

/-- The worker is one of the `workers`. -/
def isCounted : Worker J → Bool
  | .exited => false
  | _ => true

end Worker

namespace Pool

variable (p : Pool J)

/-- The jobs whose `AddJob` returned nil, from the first. -/
def accepted : List J := (p.added.filter (·.2.isNone)).map (·.1)

/-- `Close` has returned. -/
def Closed : Prop := p.holder = .none ∧ p.closeCtxDone = true

instance : Decidable p.Closed := inferInstanceAs (Decidable (_ ∧ _))

/-- The jobs are started in the order in which they were accepted, and each that was started is in
the hands of one worker or was processed once. When `Close` has returned, all were processed. -/
structure Safe : Prop where
  order : p.accepted = p.started ++ p.jobQueue
  once : (p.started : Multiset J) = p.processed + (p.team.map Worker.hand).sum
  closed : p.Closed → (p.accepted : Multiset J) = p.processed

/-- `ScaleWorkers` does not begin while a worker that was told to stop is still counted. -/
def Settled : PoolAct J → Prop
  | .scaleWorkers _ => ∀ w ∈ p.team, w.isCounted = true → w.isLive = true
  | _ => True

instance : ∀ a, Decidable (p.Settled a)
  | .scaleWorkers _ => inferInstanceAs (Decidable (∀ w ∈ p.team, _ = true → _ = true))
  | .addJob _ | .close | .addStep _ _ | .workerStep _ _ | .holderStep _ => isTrue trivial

/-- `Close` has begun and has not returned. -/
def Closing (p : Pool J) : Prop :=
  match p.holder with
  | .none | .scaling _ _ => False
  | _ => True

end Pool

/-- Workers and the holder of the lock go on by themselves. -/
def PoolAct.IsInternal : PoolAct J → Prop
  | .workerStep _ _ | .holderStep _ => True
  | .addJob _ | .scaleWorkers _ | .close | .addStep _ _ => False

/-- `Close` can return without a step from outside. -/
def Pool.Finishes (p : Pool J) : Prop :=
  ∃ acts, (∀ a ∈ acts, a.IsInternal) ∧ Trace.Along Pool.next Pool.Enabled p acts ∧
    (acts.foldl Pool.next p).Closed

end Work
