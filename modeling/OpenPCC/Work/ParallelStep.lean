import OpenPCC.Go.Error

/-!
# Parallel steps (`work/pipeline_steps.go`)

The function of a `ParallelStep` runs a goroutine that receives inputs and adds a job for each of
them to the pool, and a loop that collects the results of the jobs and sends the outputs. A step of
the model is one operation of the goroutine, of a job or of the loop on a channel, a context or the
pool, or something that happens outside: an input arrives, the input channel is closed, the step
context is cancelled. `results` holds the values in the channel, from the oldest; on a channel
without a buffer a value can be sent when the loop is waiting for it. A job is added when the pool
takes it, and an output is sent when it is received (`addJob`, `send`).
-/

namespace Work

open Go

variable {α β : Type}

structure ParallelConfig where
  maxParallel : Int
  /-- `Output` is not nil. -/
  hasOutput : Bool := true
  /-- `RemainingInput` is not nil. -/
  hasRemainingInput : Bool := true

structure JobResult (α β : Type) where
  jobID : Nat
  remainingIn : Option α := none
  output : Option β := none
  err : Option Err := none
  deriving DecidableEq

/-- Where the goroutine is: claiming a slot; waiting for an input; adding the job; sending its last
result; waiting for the jobs; at its end, when `results` is closed. -/
inductive Producer (α β : Type) where
  | claiming (i : Nat)
  | receiving (i : Nat)
  | adding (i : Nat) (x : α)
  | reporting (r : JobResult α β)
  | waiting
  | returned
  deriving DecidableEq

/-- Where the loop is: waiting for a result; sending the output of a job; at its end. -/
inductive Collector (β : Type) where
  | receiving
  | sending (jobID : Nat) (out : β)
  | returned
  deriving DecidableEq

structure ParallelRun (α β : Type) where
  stepCtx : Option CtxDone := none
  ctx : Option CtxDone := none
  input : List α := []
  inputClosed : Bool := false
  slots : Nat := 0
  producer : Producer α β := .claiming 0
  /-- the jobs of which `Func` has not returned -/
  jobs : List (Nat × α) := []
  /-- the results that jobs are about to send -/
  reports : List (JobResult α β) := []
  results : List (JobResult α β) := []
  collector : Collector β := .receiving
  err : Option Err := none
  /-- the inputs that were received -/
  received : List (Nat × α) := []
  /-- the outputs that were sent to `Output` -/
  delivered : List (Nat × β) := []
  /-- the calls of `RemainingInput` -/
  remaining : List (Nat × α × Option Err) := []
  /-- the outputs of a step without an `Output` -/
  discarded : List (Nat × β) := []
  /-- the inputs without an output. This is not in the program. -/
  failed : List (Nat × α) := []
  /-- the outputs that could not be sent. This is not in the program. -/
  unsent : List (Nat × β) := []
  deriving DecidableEq

/-- The pool and `Func` may fail at any time and with any error. -/
inductive ParallelAct (α β : Type) where
  | feed (x : α)
  | closeInput
  | cancelStep (d : CtxDone)
  | claim
  | claimCancelled
  | receive
  | receiveClosed
  | receiveCancelled
  | addJob
  | addJobFails (err : Err)
  | report
  | closeResults
  | jobReturns (k : Nat) (out : β)
  | jobFails (k : Nat) (err : Err)
  | jobReports (k : Nat)
  | collect
  | send
  | sendFails
  | finish
  deriving DecidableEq

namespace ParallelRun

variable (cfg : ParallelConfig) (s : ParallelRun α β)

/-- A value can be sent to `results`, which has a buffer of `max(0, MaxParallel-1)`. -/
def CanReport : Prop :=
  s.results.length < (cfg.maxParallel - 1).toNat ∨
    s.results.length = 0 ∧ s.collector matches .receiving

instance : Decidable (s.CanReport cfg) := inferInstanceAs (Decidable (_ ∨ _ ∧ _ = true))

/-- `select { case <-slots: default: }`. -/
def freeSlot : ParallelRun α β := { s with slots := s.slots - 1 }

/-- The goroutine. -/
def producerStep (a : ParallelAct α β) : Option (ParallelRun α β) :=
  match a, s.producer with
  | .claim, .claiming i =>
    if (s.slots : Int) < max 1 cfg.maxParallel then
      some { s with slots := s.slots + 1, producer := .receiving i }
    else none
  | .claimCancelled, .claiming i => do
    let d ← s.ctx
    return { s with producer := .reporting { jobID := i, err := some d.cause } }
  | .receive, .receiving i =>
    match s.input with
    | [] => none
    | x :: input =>
      some { s with input, producer := .adding i x, received := s.received ++ [(i, x)] }
  | .receiveClosed, .receiving i =>
    -- `DropErrInputClosed`
    if s.input.length = 0 ∧ s.inputClosed = true then
      some { s with producer := .reporting { jobID := i } }
    else none
  | .receiveCancelled, .receiving i => do
    let d ← s.ctx
    return { s with producer := .reporting { jobID := i, err := some d.err } }
  | .addJob, .adding i x =>
    some { s with producer := .claiming (i + 1), jobs := s.jobs ++ [(i, x)] }
  | .addJobFails err, .adding i x =>
    let err : Err := .errorf "failed to add job to pool: %w" [] err
    some { s with producer := .reporting { jobID := i, remainingIn := some x, err := some err } }
  | .report, .reporting r =>
    if s.CanReport cfg then some { s with producer := .waiting, results := s.results ++ [r] }
    else none
  | .closeResults, .waiting =>
    if s.jobs.length = 0 ∧ s.reports.length = 0 then some { s with producer := .returned }
    else none
  | _, _ => none

/-- The jobs. A job that fails cancels the context of the jobs. -/
def jobStep : ParallelAct α β → Option (ParallelRun α β)
  | .jobReturns k out => do
    let (i, _) ← s.jobs[k]?
    return { s with
      jobs := s.jobs.eraseIdx k
      reports := s.reports ++ [{ jobID := i, output := some out }] }
  | .jobFails k err => do
    let (i, x) ← s.jobs[k]?
    let wrapped : Err := .errorf "func failed: %w" [] err
    return { s with
      ctx := s.ctx <|> some ⟨.var .canceled, err⟩
      jobs := s.jobs.eraseIdx k
      reports := s.reports ++ [{ jobID := i, remainingIn := some x, err := some wrapped }] }
  | .jobReports k => do
    let r ← s.reports[k]?
    if s.CanReport cfg then
      return { s with reports := s.reports.eraseIdx k, results := s.results ++ [r] }
    else none
  | _ => none

/-- The call of `RemainingInput`. -/
def remain (r : JobResult α β) (err : Option Err) : ParallelRun α β :=
  match r.remainingIn with
  | none => s
  | some x => { s with
    failed := s.failed ++ [(r.jobID, x)]
    remaining := if cfg.hasRemainingInput then s.remaining ++ [(r.jobID, x, err)] else s.remaining }

/-- The body of the loop, up to the send. -/
def handle (r : JobResult α β) : ParallelRun α β :=
  let err := r.err.map (.errorf "job %d failed: %w" [.int r.jobID])
  let s := s.remain cfg r err
  match err, r.output with
  | some e, _ => { s with err := join s.err (some e) }.freeSlot
  | none, some out =>
    if cfg.hasOutput then { s with collector := .sending r.jobID out }
    else { s with discarded := s.discarded ++ [(r.jobID, out)] }.freeSlot
  | none, none => s.freeSlot

/-- The end of the body after `Send` has returned `sendErr`: the error that is checked is the one of
the step. -/
def sent (sendErr : Option Err) : ParallelRun α β :=
  let s := { s with collector := .receiving }
  match s.err with
  | some e => { s with err := join (some e) sendErr }
  | none => s.freeSlot

/-- The loop. -/
def collectorStep (a : ParallelAct α β) : Option (ParallelRun α β) :=
  match a, s.collector with
  | .collect, .receiving =>
    match s.results with
    | [] => none
    | r :: results => some ({ s with results }.handle cfg r)
  | .send, .sending i out => some ({ s with delivered := s.delivered ++ [(i, out)] }.sent none)
  | .sendFails, .sending i out => do
    let d ← s.stepCtx
    return { s with unsent := s.unsent ++ [(i, out)] }.sent (some d.err)
  | .finish, .receiving =>
    match s.results, s.producer with
    | [], .returned => some { s with collector := .returned }
    | _, _ => none
  | _, _ => none

def step (a : ParallelAct α β) : Option (ParallelRun α β) :=
  match a with
  | .feed x => if s.inputClosed then none else some { s with input := s.input ++ [x] }
  | .closeInput => if s.inputClosed then none else some { s with inputClosed := true }
  | .cancelStep d =>
    if s.stepCtx.isSome then none
    else some { s with stepCtx := some d, ctx := s.ctx <|> some d }
  | .claim | .claimCancelled | .receive | .receiveClosed | .receiveCancelled | .addJob
  | .addJobFails _ | .report | .closeResults => s.producerStep cfg a
  | .jobReturns _ _ | .jobFails _ _ | .jobReports _ => s.jobStep cfg a
  | .collect | .send | .sendFails | .finish => s.collectorStep cfg a

def Enabled (a : ParallelAct α β) : Prop := (s.step cfg a).isSome

instance (a : ParallelAct α β) : Decidable (s.Enabled cfg a) :=
  inferInstanceAs (Decidable (_ = true))

def next (a : ParallelAct α β) : ParallelRun α β := (s.step cfg a).getD s

/-! ## Accounting for the inputs -/

/-- The input `x` of the job `i` is accounted for: its output was sent to the `Output`, if there is
one, or the step returns an error and has called `RemainingInput`, if it is set. -/
def Accounts (i : Nat) (x : α) : Prop :=
  (∃ out, (i, out) ∈ s.delivered ∨ (i, out) ∈ s.discarded) ∨
    s.err ≠ none ∧ (cfg.hasRemainingInput = true → ∃ err, (i, x, err) ∈ s.remaining)

end ParallelRun

/-- The operation fails, other than in the loop. -/
def ParallelAct.Fails : ParallelAct α β → Prop
  | claimCancelled | receiveCancelled | addJobFails _ | jobFails _ _ => True
  | _ => False

end Work
