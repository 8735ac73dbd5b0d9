import Mathlib.Algebra.Order.Group.Multiset
import OpenPCC.Go.Error
import OpenPCC.Lib.Trace

/-!
# Routing of accounts (`anonpay/wallet/internal/pipeline/provide_accounts.go`)

`RouteAccounts` receives accounts that were consolidated (`priority`) and accounts that were filled
from the source (`fallback`). Full accounts go on to be withdrawn from, the others back to the
source. When `closeSignal` is closed, the step closes `withdrawableAccounts` by itself and sends all
further accounts back to the source, until both inputs are closed. `EarlyExitFullAcountsToWithdraw`
hands the full accounts on.

A step of the model is what one of the two goroutines does between two points at which it can wait,
or something that happens outside: a value is offered on an input, an input is closed, the context
is cancelled. A `nil` channel is never ready. `withdrawableAccounts` has no buffer, so a send is a
step of both goroutines; a send on it, or a second close, would panic once it is closed. A send on
one of the two outputs is a step that happens when the account is received there.
-/

namespace Wallet

open Go

variable {α : Type}

/-- A channel: the values that are offered, from the first, and whether it is closed. -/
structure Input (α : Type) where
  offers : List α := []
  closed : Bool := false
  deriving DecidableEq

/-- A receive does not block. -/
def Input.ready (c : Input α) : Bool := !c.offers.isEmpty || c.closed

/-- Where `RouteAccounts` is: in the first `select`; in the second; sending an account; at its
end. -/
inductive RoutePc (α : Type) where
  | selecting
  | selectingAll
  | sending (acc : α)
  | returned (err : Option Err)
  deriving DecidableEq

/-- Where `EarlyExitFullAcountsToWithdraw` is. -/
inductive ExitPc (α : Type) where
  | receiving
  | sending (acc : α)
  | returned (err : Option Err)
  deriving DecidableEq

/-- The account that is being sent. -/
def RoutePc.hand : RoutePc α → List α
  | .sending acc => [acc]
  | _ => []

@[inherit_doc RoutePc.hand]
def ExitPc.hand : ExitPc α → List α
  | .sending acc => [acc]
  | _ => []

/-- What is left to do in an iteration. -/
def RoutePc.weight : RoutePc α → Nat
  | .selecting => 2
  | .selectingAll => 1
  | .sending _ => 5
  | .returned _ => 0

@[inherit_doc RoutePc.weight]
def ExitPc.weight : ExitPc α → Nat
  | .receiving => 1
  | .sending _ => 2
  | .returned _ => 0

structure Route (α : Type) where
  balance : α → Int
  /-- `SourceAmount.AmountOrZero()` -/
  sourceAmount : Int
  /-- `ctx.Err()` -/
  ctxErr : Option Err := none
  inputSignal : Input Unit := {}
  inputAccounts : Input α := {}
  fullAccountsFromSource : Input α := {}
  /-- the variables `closeSignal`, `priority` and `fallback` are not nil -/
  closeSignal : Bool := true
  priority : Bool := true
  fallback : Bool := true
  router : RoutePc α := .selecting
  withdrawableClosed : Bool := false
  exit : ExitPc α := .receiving
  /-- the accounts that were offered. This is not in the program. -/
  offered : List α := []
  /-- the accounts sent to `OutputFullAccountsToWithdraw` -/
  toWithdraw : List α := []
  /-- the accounts sent to `OutputAccountsToSource` -/
  toSource : List α := []
  /-- the accounts that could not be sent. This is not in the program. -/
  dropped : List α := []
  crashed : Bool := false

inductive RouteAct (α : Type) where
  -- outside
  | signal
  | closeSignal
  | offerPriority (acc : α)
  | closePriority
  | offerFallback (acc : α)
  | closeFallback
  | cancel (err : Err)
  -- `RouteAccounts`
  | ctxDone
  | receiveSignal
  | receivePriority
  /-- the `default` of the first `select` -/
  | noneReady
  | receiveFallback
  | sendToSource
  | sendWithdrawable
  | sendCtxDone
  -- `EarlyExitFullAcountsToWithdraw`
  | exitClosed
  | exitCtxDone
  | exitSend
  | exitSendCtxDone
  deriving DecidableEq

/-- An act of one of the two goroutines. -/
def RouteAct.isInner : RouteAct α → Bool
  | .signal | .closeSignal | .offerPriority _ | .closePriority | .offerFallback _ | .closeFallback
  | .cancel _ => false
  | _ => true

/-- A send on one of the outputs, which waits for a receiver. -/
def RouteAct.isOutput : RouteAct α → Bool
  | .sendToSource | .exitSend => true
  | _ => false

namespace Route

variable (r : Route α)

/-- `withdrawableAccounts.Close()`. -/
def closeWithdrawable : Route α :=
  if r.withdrawableClosed then { r with crashed := true } else { r with withdrawableClosed := true }

/-- `return err`, with the deferred function. -/
def finish (err : Option Err) : Route α :=
  let r := { r with router := .returned err }
  if r.closeSignal then r.closeWithdrawable else r

/-- The rest of an iteration without an account. -/
def again : Route α :=
  if r.closeSignal = false ∧ r.priority = false ∧ r.fallback = false then r.finish none
  else { r with router := .selecting }

/-- The account goes back to the source. -/
def returnsToSource (acc : α) : Bool := !r.closeSignal || r.balance acc < r.sourceAmount

/-- In one of the two `select`s. -/
def selects : Bool :=
  match r.router with
  | .selecting | .selectingAll => true
  | _ => false

def outerStep : RouteAct α → Option (Route α)
  | .signal =>
    if r.inputSignal.closed then none
    else some { r with inputSignal.offers := r.inputSignal.offers ++ [()] }
  | .closeSignal =>
    if r.inputSignal.closed ∨ r.inputSignal.offers ≠ [] then none
    else some { r with inputSignal.closed := true }
  | .offerPriority acc =>
    if r.inputAccounts.closed then none
    else
      some { r with
        inputAccounts.offers := r.inputAccounts.offers ++ [acc], offered := r.offered ++ [acc] }
  | .closePriority =>
    if r.inputAccounts.closed ∨ r.inputAccounts.offers.isEmpty = false then none
    else some { r with inputAccounts.closed := true }
  | .offerFallback acc =>
    if r.fullAccountsFromSource.closed then none
    else
      some { r with
        fullAccountsFromSource.offers := r.fullAccountsFromSource.offers ++ [acc]
        offered := r.offered ++ [acc] }
  | .closeFallback =>
    if r.fullAccountsFromSource.closed ∨ r.fullAccountsFromSource.offers.isEmpty = false then none
    else some { r with fullAccountsFromSource.closed := true }
  | .cancel err => if r.ctxErr.isSome then none else some { r with ctxErr := some err }
  | _ => none

/-- A receive from `closeSignal`; a value on it is passed over. -/
def receiveSignal : Option (Route α) :=
  match r.closeSignal, r.inputSignal.offers, r.inputSignal.closed with
  | true, _ :: offers, _ => some { r with inputSignal.offers := offers, router := .selecting }
  | true, [], true => some { r.closeWithdrawable with closeSignal := false }.again
  | _, _, _ => none

def receivePriority : Option (Route α) :=
  match r.priority, r.inputAccounts.offers, r.inputAccounts.closed with
  | true, acc :: offers, _ =>
    some { r with inputAccounts.offers := offers, router := .sending acc }
  | true, [], true => some { r with priority := false }.again
  | _, _, _ => none

def receiveFallback : Option (Route α) :=
  match r.fallback, r.fullAccountsFromSource.offers, r.fullAccountsFromSource.closed with
  | true, acc :: offers, _ =>
    some { r with fullAccountsFromSource.offers := offers, router := .sending acc }
  | true, [], true => some { r with fallback := false }.again
  | _, _, _ => none

def routerStep : RouteAct α → Option (Route α)
  | .ctxDone => if r.selects ∧ r.ctxErr.isSome then some (r.finish r.ctxErr) else none
  | .receiveSignal => if r.selects then r.receiveSignal else none
  | .receivePriority => if r.selects then r.receivePriority else none
  | .noneReady =>
    match r.router with
    | .selecting =>
      if r.ctxErr.isSome ∨ (r.closeSignal ∧ r.inputSignal.ready) ∨
          (r.priority ∧ r.inputAccounts.ready) then none
      else some { r with router := .selectingAll }
    | _ => none
  | .receiveFallback =>
    match r.router with
    | .selectingAll => r.receiveFallback
    | _ => none
  | .sendToSource =>
    match r.router with
    | .sending acc =>
      if r.returnsToSource acc then
        some { r with toSource := r.toSource ++ [acc], router := .selecting }
      else none
    | _ => none
  | .sendWithdrawable =>
    match r.router, r.exit with
    | .sending acc, .receiving =>
      if r.returnsToSource acc then none
      else if r.withdrawableClosed then some { r with crashed := true }
      else some { r with router := .selecting, exit := .sending acc }
    | _, _ => none
  | .sendCtxDone =>
    match r.router, r.ctxErr with
    | .sending acc, some err =>
      some ({ r with dropped := r.dropped ++ [acc] }.finish
        (some (.errorf "failed to send output: %w" [] err)))
    | _, _ => none
  | _ => none

def exitStep : RouteAct α → Option (Route α)
  | .exitClosed =>
    match r.exit with
    | .receiving => if r.withdrawableClosed then some { r with exit := .returned none } else none
    | _ => none
  | .exitCtxDone =>
    match r.exit, r.ctxErr with
    | .receiving, some err => some { r with exit := .returned (some err) }
    | _, _ => none
  | .exitSend =>
    match r.exit with
    | .sending acc => some { r with toWithdraw := r.toWithdraw ++ [acc], exit := .receiving }
    | _ => none
  | .exitSendCtxDone =>
    match r.exit, r.ctxErr with
    | .sending acc, some err =>
      some { r with
        dropped := r.dropped ++ [acc]
        exit := .returned (some (.errorf "failed to send output: %w" [] err)) }
    | _, _ => none
  | _ => none

def step (a : RouteAct α) : Option (Route α) :=
  if r.crashed then none else r.outerStep a <|> r.routerStep a <|> r.exitStep a

/-- The act can happen. -/
def Enabled (a : RouteAct α) : Prop := (r.step a).isSome

instance (a : RouteAct α) : Decidable (r.Enabled a) :=
  inferInstanceAs (Decidable ((r.step a).isSome = true))

def next (a : RouteAct α) : Route α := (r.step a).getD r

/-- Both steps begin. -/
def start (balance : α → Int) (sourceAmount : Int) : Route α :=
  { balance := balance, sourceAmount := sourceAmount }

/-! ## What is promised -/

/-- The accounts in the hands of the two goroutines. -/
def hands : List α := r.router.hand ++ r.exit.hand

/-- Both steps have returned without an error. -/
def Finished : Prop := r.router = .returned none ∧ r.exit = .returned none

/-- Nothing panics. An account that was offered is still offered, in the hands of a step, sent to
one of the outputs, or was dropped when the context was cancelled, at most one by each step; only
full accounts are withdrawn from. When both steps have returned without an error, all accounts that
were offered have been sent, and no more can be offered. -/
structure Safe : Prop where
  crashed : r.crashed = false
  kept : (r.offered : Multiset α) =
    (r.inputAccounts.offers + r.fullAccountsFromSource.offers + r.hands : Multiset α) +
      (r.toWithdraw + r.toSource + r.dropped : Multiset α)
  full : ∀ acc ∈ r.toWithdraw, r.sourceAmount ≤ r.balance acc
  dropped : r.dropped.length ≤ 2 ∧ (r.ctxErr = none → r.dropped = [])
  finished : r.Finished → (r.offered : Multiset α) = (r.toWithdraw + r.toSource : Multiset α) ∧
    r.inputAccounts.closed = true ∧ r.fullAccountsFromSource.closed = true

/-- One of the steps waits for an account to be received on its output. -/
def Sends : Prop :=
  (∃ acc, r.router = .sending acc ∧ r.returnsToSource acc = true) ∨ ∃ acc, r.exit = .sending acc

/-- Unless both steps have returned, one of them can go on by itself, or the context is not
cancelled and they wait for an input that is not closed or for an account to be received. -/
def Progresses : Prop :=
  (∀ a : RouteAct α, a.isInner = true → a.isOutput = false → ¬ r.Enabled a) →
    ((∃ err, r.router = .returned err) ∧ ∃ err, r.exit = .returned err) ∨
      r.ctxErr = none ∧
        (r.inputSignal.closed = false ∨ r.inputAccounts.closed = false ∨
          r.fullAccountsFromSource.closed = false ∨ r.Sends)

/-- What the two goroutines can still do without the outside. -/
def weight : Nat :=
  5 * (r.inputAccounts.offers.length + r.fullAccountsFromSource.offers.length) +
    2 * r.inputSignal.offers.length +
    2 * (r.closeSignal.toNat + r.priority.toNat + r.fallback.toNat) + r.router.weight +
    r.exit.weight

end Route

end Wallet
