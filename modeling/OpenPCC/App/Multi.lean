import Mathlib.Algebra.Order.Group.Multiset
import OpenPCC.Go.Error
import OpenPCC.Lib.Trace

/-!
# Several applications as one (`app/multi_app.go`)

`Multi.Run` runs each application in a goroutine of the group, which runs `App.Run` in a goroutine
of its own and waits for its result or for the context of the group. When the context is cancelled
it shuts the application down and waits for the result then. A goroutine with an error sends it on
`errs` and cancels the context. `errs` is closed when all goroutines of the group are done, and
`Run` joins the errors until then.

A step of the model is what one goroutine does between two points at which it can wait, or the end
of a call of an application. Neither channel has a buffer, so a send is a step of both sides. A send
on a closed channel panics. What else may shut an application down, such as `Multi.Shutdown`, is
only seen by the end of its `App.Run`, which may come at any time.
-/

namespace App

open Go

/-- Where the goroutine of an `App.Run` is: in the call; before it sends the error; at its end. -/
inductive AppRun where
  | running
  | sending (err : Option Err)
  | done
  deriving DecidableEq

/-- Where the goroutine of the group is: in the `select` of `run`; in `errorShutdownFunc`; waiting
for the result of `App.Run`; after `run`; before it cancels the context; at its end. -/
inductive GroupRun where
  | selecting
  | shuttingDown
  | waiting (err : Option Err)
  | returned (err : Option Err)
  | cancelling
  | done
  deriving DecidableEq

/-- An application of the group, with the results of its calls. -/
structure GroupApp where
  app : AppRun := .running
  group : GroupRun := .selecting
  /-- what `App.Run` returned -/
  runErr : Option (Option Err) := none
  /-- what `errorShutdownFunc` returned -/
  shutdownErr : Option (Option Err) := none
  deriving DecidableEq

structure Multi where
  apps : List GroupApp
  groupCtxDone : Bool := false
  errsClosed : Bool := false
  outErr : Option Err := none
  /-- the errors that were received, from the first -/
  received : List Err := []
  /-- `Run` has returned -/
  returned : Bool := false
  crashed : Bool := false
  deriving DecidableEq

/-- The steps of the two goroutines of an application. -/
inductive GroupAct where
  /-- `App.Run` returns -/
  | runReturns (err : Option Err)
  | sendResult
  | selectCtxDone
  /-- `errorShutdownFunc` returns -/
  | shutdownReturns (err : Option Err)
  | sendErr
  | cancel
  | finish
  deriving DecidableEq

inductive MultiAct where
  | app (i : Nat) (a : GroupAct)
  | closeErrs
  /-- the loop over `errs` ends -/
  | endLoop
  deriving DecidableEq

/-- The result of `App.Run` is received, in the `select` or after the shutdown. -/
def GroupApp.receive (a : GroupApp) (err : Option Err) : Option GroupApp :=
  match a.group with
  | .selecting => some { a with app := .done, group := .returned err }
  | .waiting shutdownErr => some { a with app := .done, group := .returned (join shutdownErr err) }
  | _ => none

namespace Multi

variable (m : Multi)

def setApp (i : Nat) (a : GroupApp) : Multi := { m with apps := m.apps.set i a }

/-- A goroutine of the group sends its error to the loop in `Run`. -/
def sendErr (i : Nat) (a : GroupApp) (err : Err) : Multi :=
  if m.errsClosed then { m with crashed := true }
  else
    { m with
      apps := m.apps.set i { a with group := .cancelling }
      outErr := join m.outErr (some err)
      received := m.received ++ [err] }

def appStep (i : Nat) (a : GroupApp) : GroupAct → Option Multi
  | .runReturns err =>
    match a.app with
    | .running => some (m.setApp i { a with app := .sending err, runErr := some err })
    | _ => none
  | .sendResult =>
    match a.app with
    | .sending err => (a.receive err).map (m.setApp i)
    | _ => none
  | .selectCtxDone =>
    match a.group, m.groupCtxDone with
    | .selecting, true => some (m.setApp i { a with group := .shuttingDown })
    | _, _ => none
  | .shutdownReturns err =>
    match a.group with
    | .shuttingDown => some (m.setApp i { a with group := .waiting err, shutdownErr := some err })
    | _ => none
  | .sendErr =>
    match a.group with
    | .returned (some err) => some (m.sendErr i a err)
    | _ => none
  | .cancel =>
    match a.group with
    | .cancelling => some ({ m with groupCtxDone := true }.setApp i { a with group := .done })
    | _ => none
  | .finish =>
    match a.group with
    | .returned none => some (m.setApp i { a with group := .done })
    | _ => none

def step (act : MultiAct) : Option Multi :=
  if m.crashed ∨ m.returned then none
  else
    match act with
    | .app i act => do
      let a ← m.apps[i]?
      m.appStep i a act
    | .closeErrs =>
      -- `wg.Wait()` returns
      if m.errsClosed = false ∧ ∀ a ∈ m.apps, a.group = .done then
        some { m with errsClosed := true }
      else none
    | .endLoop => if m.errsClosed then some { m with returned := true } else none

/-- The act can happen. -/
def Enabled (a : MultiAct) : Prop := (m.step a).isSome

instance (a : MultiAct) : Decidable (m.Enabled a) :=
  inferInstanceAs (Decidable ((m.step a).isSome = true))

def next (a : MultiAct) : Multi := (m.step a).getD m

/-- `Run` is called with `n` applications. -/
def start (n : Nat) : Multi :=
  if n = 0 then { apps := [], returned := true } else { apps := List.replicate n {} }

end Multi

/-! ## What is reported -/

/-- The application has been told to stop. -/
def GroupApp.Stopping (a : GroupApp) : Prop :=
  a.group = .shuttingDown ∨ ∃ err, a.group = .waiting err

/-- The error of `run`, once both calls have returned that it makes. -/
def GroupApp.err (a : GroupApp) : Option Err :=
  match a.shutdownErr with
  | none => a.runErr.join
  | some shutdownErr => join shutdownErr a.runErr.join

namespace Multi

variable (m : Multi)

/-- The errors of the applications. -/
def errors : Multiset Err := (m.apps.map fun a => (a.err.toList : Multiset Err)).sum

/-- One of the calls `App.Run` and `App.Shutdown` returned an error. -/
def Failed : Prop :=
  ∃ a ∈ m.apps, (∃ err, a.runErr = some (some err)) ∨ ∃ err, a.shutdownErr = some (some err)

/-- Nothing was sent on a closed channel. When `Run` returns, every `App.Run` has returned; the
error joins those of the applications, each of them once, and is nil exactly if no call failed; and
if one failed, the group is cancelled. -/
structure Safe : Prop where
  crashed : m.crashed = false
  outErr : m.outErr = m.received.foldl (fun outErr err => join outErr (some err)) none
  apps : m.returned = true → ∀ a ∈ m.apps, a.runErr.isSome = true
  received : m.returned = true → (m.received : Multiset Err) = m.errors
  failed : m.returned = true → (m.outErr.isSome = true ↔ m.Failed)
  cancelled : m.returned = true → m.Failed → m.groupCtxDone = true

/-- Nothing can happen before a call of an application returns. -/
def Waits : Prop :=
  ∀ act, m.Enabled act →
    ∃ i err, act = .app i (.runReturns err) ∨ act = .app i (.shutdownReturns err)

/-- While `Run` has not returned and nothing else can happen, an `App.Run` has not returned either,
or an `App.Shutdown`; if the group is cancelled, all of these applications have been told to stop.
-/
def Progresses : Prop :=
  m.Waits → m.returned = false →
    (∃ a ∈ m.apps, a.app = .running ∨ a.group = .shuttingDown) ∧
      (m.groupCtxDone = true → ∀ a ∈ m.apps, a.group ≠ .done → a.Stopping)

end Multi

end App
