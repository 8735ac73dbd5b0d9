import Mathlib.Algebra.Order.Group.Multiset
import OpenPCC.Go.Error

/-!
# The delay pool

A pool holds items until they are available. The processor, a goroutine of the pool, takes the items
out of the heap when they are due and hands them over through the channel `output`; `Close` and
`CloseImmediate` stop the processor and drain the heap themselves.

The goroutines are the calls of `Add`, the processor, the one call of `Close` or `CloseImmediate`
that closes the pool, the goroutine with which `CloseImmediate` collects the items, and whoever
receives from `Output`. A step of the model is what one of them does under the lock or in one case
of a `select`. `output` has no buffer: a send is a step of the sender and of the receiver. The two
channels for notifications have room for one. What `heap.Pop` returns is an item that is not later
than any other; of several such items it may be any.
-/

namespace Delay

open Go

variable {α : Type}

/-- `Delayed[T]`, which is what `output` carries. -/
structure Delayed (α : Type) where
  delay : Int
  v : α
  deriving DecidableEq

structure PoolItem (α : Type) where
  val : α
  delay : Int
  availableAfter : Int
  deriving DecidableEq

/-- A call of `Add`, which tries to add its item or waits for space. -/
structure AddCall (α : Type) where
  item : PoolItem α
  waiting : Bool := false
  deriving DecidableEq

/-- Where the processor is: at the start of its loop; waiting for a notification; with the time of
the first item, before it compares it with the time and while the timer runs; in
`processReadyItems`, before it reads the time, with the time and the number of items it processed,
and with an item that it removed from the heap. -/
inductive Processor (α : Type) where
  | loop
  | idle
  | check (nextTime : Int)
  | timer (nextTime : Int)
  | start
  | ready (now : Int) (processed : Nat)
  | sending (now : Int) (processed : Nat) (item : PoolItem α)
  | stopped
  deriving DecidableEq

/-- Where the call is that closes the pool, `Close` if `respectDelays` and else `CloseImmediate`:
before it cancels the context; waiting for the processor; in `drainHeap`, at the start of the loop,
asleep, and with an item; before it closes `output`; waiting for what the other goroutine collected.
The result of `Close` is `none`. -/
inductive Closer (α : Type) where
  | none
  | closing (respectDelays : Bool)
  | waiting (respectDelays : Bool)
  | draining (respectDelays : Bool)
  | sleeping (wakeAt : Int)
  | sending (respectDelays : Bool) (item : PoolItem α)
  | drained (respectDelays : Bool)
  | collecting
  | returned (result : Option (List α))
  deriving DecidableEq

structure Pool (α : Type) where
  capacity : Int
  heap : List (PoolItem α) := []
  closed : Bool := false
  closeCtxDone : Bool := false
  notifyNewItem : Bool := false
  notifySpaceAvailable : Bool := false
  outputClosed : Bool := false
  clock : Int := 0
  /-- the calls of `Add` that have not returned -/
  calls : List (AddCall α) := []
  /-- the items of the calls that have returned, with the errors -/
  added : List (PoolItem α × Option Err) := []
  processor : Processor α := .loop
  closer : Closer α := .none
  /-- the items of the goroutine of `CloseImmediate`, while it runs -/
  collector : Option (List α) := none
  /-- what was received from `Output` by others -/
  received : List (Delayed α) := []
  deriving DecidableEq

/-- `NewPool`, with the processor started. -/
def newPool (capacity : Int) : Pool α := { capacity }

/-- Who receives an item. -/
inductive Receiver where
  | consumer
  | collector
  deriving DecidableEq

/-! ## The goroutines -/

inductive AddAct where
  | tryAdd (isEarliest : Bool)
  | spaceAvailable
  | closed
  | cancelled (err : Err)
  deriving DecidableEq

inductive ProcessorAct where
  | look
  | notified
  | stop
  | compare
  | expire
  | begin
  | pop (i : Nat)
  | finish
  | send (rcv : Receiver)
  /-- the case `<-p.closeCtx.Done()` in `processReadyItems` -/
  | giveUp
  deriving DecidableEq

inductive CloserAct where
  | cancel
  | wait
  | pop (i : Nat)
  | sleep
  | wake
  | send (rcv : Receiver)
  | finish
  | closeOutput
  | collect
  deriving DecidableEq

/-- What happens: time passes, `Add`, `Close` or `CloseImmediate` is called, or a goroutine takes a
step. -/
inductive Act (α : Type) where
  | tick (d : Nat)
  | add (v : α) (delay : Int)
  | close (respectDelays : Bool)
  | addStep (i : Nat) (a : AddAct)
  | processorStep (a : ProcessorAct)
  | closerStep (a : CloserAct)
  deriving DecidableEq

namespace Pool

variable (p : Pool α)

/-- The time of the first item, `(*p.heap)[0].availableAfter`. -/
def nextTime : Option Int := (p.heap.map PoolItem.availableAfter).min?

/-- `popFromHeap`, with the `i`-th item as the first one. -/
def popFromHeap (i : Nat) : Option (PoolItem α × Pool α) := do
  let item ← p.heap[i]?
  guard (∀ y ∈ p.heap, item.availableAfter ≤ y.availableAfter)
  return (item, { p with heap := p.heap.eraseIdx i })

/-- An item is received from `output`. -/
def deliver (item : PoolItem α) : Receiver → Option (Pool α)
  | .consumer => some { p with received := p.received ++ [⟨item.delay, item.val⟩] }
  | .collector => p.collector.map fun items => { p with collector := some (items ++ [item.val]) }

/-- The `i`-th call of `Add` returns. -/
def addReturns (i : Nat) (call : AddCall α) (err : Option Err) : Pool α :=
  { p with calls := p.calls.eraseIdx i, added := p.added ++ [(call.item, err)] }

def errClosed : Err := .new "cannot add item to closed pool" []

/-- `tryAdd` of a call of `Add`, with the return or the wait that follows. `isEarliest` tells if the
item is at the top of the heap. -/
def tryAdd (i : Nat) (call : AddCall α) (isEarliest : Bool) : Option (Pool α) :=
  if p.closed then some (p.addReturns i call (some errClosed))
  else if 0 < p.capacity ∧ p.capacity ≤ p.heap.length then
    some { p with calls := p.calls.set i { call with waiting := true } }
  else do
    guard (if isEarliest then ∀ y ∈ p.heap, call.item.availableAfter ≤ y.availableAfter
      else ∃ y ∈ p.heap, y.availableAfter ≤ call.item.availableAfter)
    let p := { p with
      heap := p.heap ++ [call.item]
      notifyNewItem := p.notifyNewItem || p.heap.isEmpty || isEarliest }
    return p.addReturns i call none

def addStep (i : Nat) (call : AddCall α) : AddAct → Option (Pool α)
  | .tryAdd isEarliest => if call.waiting then none else p.tryAdd i call isEarliest
  | .spaceAvailable =>
    if call.waiting ∧ p.notifySpaceAvailable then
      some { p with
        notifySpaceAvailable := false
        calls := p.calls.set i { call with waiting := false } }
    else none
  | .closed =>
    if call.waiting ∧ p.closeCtxDone then some (p.addReturns i call (some errClosed)) else none
  | .cancelled err => if call.waiting then some (p.addReturns i call (some err)) else none

/-- `processor` and `processReadyItems`. -/
def processorStep (a : ProcessorAct) : Option (Pool α) :=
  match p.processor, a with
  | .loop, .look =>
    some { p with processor := match p.nextTime with
      | none => .idle
      | some nextTime => .check nextTime }
  | .idle, .stop | .timer _, .stop =>
    if p.closeCtxDone then some { p with processor := .stopped } else none
  | .idle, .notified | .timer _, .notified =>
    if p.notifyNewItem then some { p with notifyNewItem := false, processor := .loop } else none
  | .check nextTime, .compare =>
    some { p with processor := if nextTime ≤ p.clock then .start else .timer nextTime }
  | .timer nextTime, .expire =>
    if nextTime ≤ p.clock then some { p with processor := .start } else none
  | .start, .begin => some { p with processor := .ready p.clock 0 }
  | .ready now processed, .pop i => do
    let (item, p) ← p.popFromHeap i
    guard (item.availableAfter ≤ now)
    return { p with processor := .sending now (processed + 1) item }
  | .ready now processed, .finish =>
    if ∀ item ∈ p.heap, now < item.availableAfter then
      some { p with
        processor := .loop
        notifySpaceAvailable := p.notifySpaceAvailable || (0 < p.capacity && 0 < processed) }
    else none
  | .sending now processed item, .send rcv => do
    let p ← p.deliver item rcv
    return { p with processor := .ready now processed }
  | .sending _ _ _, .giveUp => if p.closeCtxDone then some { p with processor := .loop } else none
  | _, _ => none

/-- `firstClose`, and for `CloseImmediate` the start of the goroutine that collects the items. -/
def firstClose (respectDelays : Bool) : Pool α :=
  if p.closed then p
  else { p with
    closed := true
    closer := .closing respectDelays
    collector := if respectDelays then none else some [] }

/-- `drainAndClose` and `drainHeap`, and the end of `CloseImmediate`. -/
def closerStep (a : CloserAct) : Option (Pool α) :=
  match p.closer, a with
  | .closing respectDelays, .cancel =>
    some { p with closeCtxDone := true, closer := .waiting respectDelays }
  | .waiting respectDelays, .wait =>
    match p.processor with
    | .stopped => some { p with closer := .draining respectDelays }
    | _ => none
  | .draining respectDelays, .pop i => do
    let (item, p) ← p.popFromHeap i
    guard (respectDelays → item.availableAfter ≤ p.clock)
    return { p with closer := .sending respectDelays item }
  | .draining true, .sleep => do
    let nextTime ← p.nextTime
    guard (p.clock < nextTime)
    return { p with closer := .sleeping nextTime }
  | .sleeping wakeAt, .wake =>
    if wakeAt ≤ p.clock then some { p with closer := .draining true } else none
  | .sending respectDelays item, .send rcv => do
    let p ← p.deliver item rcv
    return { p with closer := .draining respectDelays }
  | .draining respectDelays, .finish =>
    if p.heap.isEmpty then some { p with closer := .drained respectDelays } else none
  | .drained respectDelays, .closeOutput =>
    some { p with
      outputClosed := true
      closer := if respectDelays then .returned none else .collecting }
  | .collecting, .collect =>
    p.collector.map fun items => { p with collector := none, closer := .returned (some items) }
  | _, _ => none

def step : Act α → Option (Pool α)
  | .tick d => some { p with clock := p.clock + d }
  | .add v delay => some { p with calls := p.calls ++ [{ item := ⟨v, delay, p.clock + delay⟩ }] }
  | .close respectDelays => some (p.firstClose respectDelays)
  | .addStep i a => do
    let call ← p.calls[i]?
    p.addStep i call a
  | .processorStep a => p.processorStep a
  | .closerStep a => p.closerStep a

end Pool

/-! ## Runs -/

/-- The value that the processor has taken out of the heap and not handed over. -/
def Processor.hand : Processor α → Multiset α
  | .sending _ _ item => {item.val}
  | _ => 0

/-- The value that `drainHeap` has taken out of the heap and not handed over. -/
def Closer.hand : Closer α → Multiset α
  | .sending _ item => {item.val}
  | _ => 0

/-- What `CloseImmediate` returned. -/
def Closer.result : Closer α → Multiset α
  | .returned result => (result.getD [] : List α)
  | _ => 0

namespace Pool

variable (p : Pool α)

/-- The act can happen. -/
def Enabled (a : Act α) : Prop := (p.step a).isSome

instance (a : Act α) : Decidable (p.Enabled a) :=
  inferInstanceAs (Decidable ((p.step a).isSome = true))

def next (a : Act α) : Pool α := (p.step a).getD p

/-- The values whose `Add` returned nil. -/
def accepted : Multiset α := ((p.added.filter (·.2.isNone)).map (·.1.val) : List α)

/-- The values that are in the heap or in a hand or were received from `output`. -/
def held : Multiset α :=
  (p.heap.map PoolItem.val : List α) + p.processor.hand + p.closer.hand +
    (p.received.map Delayed.v : List α) + (p.collector.getD [] : List α) + p.closer.result

/-- No value that was accepted is lost or there twice. -/
def Conserved : Prop := p.accepted = p.held

/-- The pool loses nothing, and when it is closed everything was received from `Output` or is in
what `CloseImmediate` returned. -/
def Safe : Prop :=
  p.Conserved ∧ ∀ result, p.closer = .returned result →
    p.accepted = (p.received.map Delayed.v : List α) + (result.getD [] : List α)

end Pool

end Delay
