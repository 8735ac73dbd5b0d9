import OpenPCC.Go.Error
import OpenPCC.Lib.Trace

/-!
# Running an application (`app/run.go`)

`Run` starts two goroutines. The run goroutine calls `App.Run`, sends its error on `errs` and closes
`runDone`. The shutdown goroutine waits for `runDone` or for the context; if the context is
cancelled it calls `App.Shutdown`, waits for `runDone` or for a timer, and sends the error of
`App.Shutdown`. It closes `errs` when it ends. `Run` itself receives errors until `errs` is closed.

A step of the model is what one goroutine does between two points at which it can wait, or the end
of a call of the application, or the cancellation of the context. `errs` has no buffer, so a send is
a step of the sender and of the loop in `Run`. A send on a closed channel panics, which ends the
program. The timer may expire as soon as it runs.
-/

namespace App

open Go

/-- Where the run goroutine is: in `App.Run`; before it sends the error; before it closes `runDone`;
at its end; or in a panic, since `errs` was closed. -/
inductive Runner where
  | running
  | sending (err : Option Err)
  | sent (err : Option Err)
  | done (err : Option Err)
  | crashed (err : Option Err)
  deriving DecidableEq

/-- Where the shutdown goroutine is: in the first `select`; in `App.Shutdown`; in the second
`select`; before it sends the error; before it closes `errs`; at its end. The last two have the
error of `App.Shutdown`, if that was called. -/
inductive Stopper where
  | selecting
  | shuttingDown
  | waiting (err : Option Err)
  | sending (err : Option Err)
  | closing (shutdown : Option (Option Err))
  | closed (shutdown : Option (Option Err))
  deriving DecidableEq

/-- The loop over `errs` and what `Run` returns. -/
inductive Collector where
  | collecting (code : Nat)
  | returned (code : Nat)
  deriving DecidableEq

structure State where
  ctxDone : Bool := false
  runner : Runner := .running
  stopper : Stopper := .selecting
  collector : Collector := .collecting 0
  deriving DecidableEq

inductive Act where
  /-- the context is cancelled -/
  | cancel
  /-- `App.Run` returns -/
  | runReturns (err : Option Err)
  | runSend
  | closeRunDone
  /-- the cases of the first `select` -/
  | selectRunDone
  | selectCtxDone
  /-- `App.Shutdown` returns -/
  | shutdownReturns (err : Option Err)
  /-- the cases of the second `select` -/
  | waitRunDone
  | timeout
  | shutdownSend
  | closeErrs
  /-- the loop ends -/
  | finish
  deriving DecidableEq

/-- The body of the loop over `errs`. -/
def collect (code : Nat) : Option Err → Nat
  | some _ => 1
  | none => code

namespace State

variable (s : State)

/-- The run goroutine sends its error: to the loop, unless the channel is closed. -/
def runSend (err : Option Err) : Option State :=
  match s.stopper, s.collector with
  | .closed _, _ => some { s with runner := .crashed err }
  | _, .collecting code =>
    some { s with runner := .sent err, collector := .collecting (collect code err) }
  | _, .returned _ => none

def step (a : Act) : Option State :=
  match s.runner with
  | .crashed _ => none
  | runner =>
    match a, runner, s.stopper with
    | .cancel, _, _ => some { s with ctxDone := true }
    | .runReturns err, .running, _ => some { s with runner := .sending err }
    | .runSend, .sending err, _ => s.runSend err
    | .closeRunDone, .sent err, _ => some { s with runner := .done err }
    | .selectRunDone, .done _, .selecting => some { s with stopper := .closing none }
    | .selectCtxDone, _, .selecting =>
      if s.ctxDone then some { s with stopper := .shuttingDown } else none
    | .shutdownReturns err, _, .shuttingDown => some { s with stopper := .waiting err }
    | .waitRunDone, .done _, .waiting err => some { s with stopper := .sending err }
    | .timeout, _, .waiting err => some { s with stopper := .sending err }
    | .shutdownSend, _, .sending err =>
      match s.collector with
      | .collecting code =>
        some { s with
          stopper := .closing (some err)
          collector := .collecting (collect code err) }
      | .returned _ => none
    | .closeErrs, _, .closing shutdown => some { s with stopper := .closed shutdown }
    | .finish, _, .closed _ =>
      match s.collector with
      | .collecting code => some { s with collector := .returned code }
      | .returned _ => none
    | _, _, _ => none

/-- The act can happen. -/
def Enabled (a : Act) : Prop := (s.step a).isSome

instance (a : Act) : Decidable (s.Enabled a) :=
  inferInstanceAs (Decidable ((s.step a).isSome = true))

def next (a : Act) : State := (s.step a).getD s

end State

/-! ## What is reported -/

/-- What `App.Run` returned, if it did. -/
def Runner.result : Runner → Option (Option Err)
  | .running => none
  | .sending err | .sent err | .done err | .crashed err => some err

/-- What `App.Shutdown` returned, if it was called and did. -/
def Stopper.result : Stopper → Option (Option Err)
  | .selecting | .shuttingDown => none
  | .waiting err | .sending err => some err
  | .closing shutdown | .closed shutdown => shutdown

/-- The loop has received the result of `App.Run`. -/
def Runner.Received : Runner → Prop
  | .sent _ | .done _ => True
  | .running | .sending _ | .crashed _ => False

instance : DecidablePred Runner.Received
  | .sent _ | .done _ => isTrue trivial
  | .running | .sending _ | .crashed _ => isFalse id

namespace State

/-- `App.Run` or `App.Shutdown` returned an error. -/
def Failed (s : State) : Prop :=
  (∃ err, s.runner.result = some (some err)) ∨ ∃ err, s.stopper.result = some (some err)

/-- No goroutine has sent on a closed channel, and the code that `Run` returned is 1 exactly if
`App.Run` or `App.Shutdown` returned an error. -/
def Safe (s : State) : Prop :=
  (∀ err, s.runner ≠ .crashed err) ∧
    ∀ code, s.collector = .returned code → (code = 1 ↔ s.Failed)

/-- `errs` is not closed before the result of `App.Run` is received. -/
def InTime (s : State) : Act → Prop
  | .closeErrs => s.runner.Received
  | _ => True

instance (s : State) : ∀ a, Decidable (s.InTime a)
  | .closeErrs => inferInstanceAs (Decidable s.runner.Received)
  | .cancel | .runReturns _ | .runSend | .closeRunDone | .selectRunDone | .selectCtxDone
  | .shutdownReturns _ | .waitRunDone | .timeout | .shutdownSend | .finish => isTrue trivial

/-- Nothing is left to do but for the context. -/
def Ended (s : State) : Prop := ∀ a, a ≠ .cancel → ¬ s.Enabled a

end State

end App
