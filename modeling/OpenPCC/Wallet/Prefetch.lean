import OpenPCC.Wallet.Rep
import OpenPCC.Wallet.Transfer

/-!
# Prefetched bank batches

`CreateIntents` of the prefetch steps takes one bank batch after the other and makes an intent for
each payment request, to transfer one credit of the batch. When the batch expires or the requests
are closed before its credits are used up, it sends a closing repetition of the batch through a
channel of its own. `DedupeBatches` collects the repetitions from the completed transfers and from
that channel, and sends a batch that is complete and still has credits to
`OutputBankBatchesToConsolidate`.

A step of the model is what one of the steps of the pipeline does with one value that it receives,
or a withdrawal or a deposit of a transfer. A channel is the list of the values in it, from which
any may be received, as transfers run in parallel. A transfer that fails cancels the pipeline: no
step of the model follows.
-/

namespace Wallet

open Go Anonpay

/-- What `CreateIntents` has done with a batch: the credits that the batch had, the number of
payment requests it served, and whether it is closed. This is not in the program. -/
structure BatchHistory where
  original : List BlindedCredit
  served : Nat := 0
  closed : Bool := false
  deriving DecidableEq

/-- A bank batch that `CreateIntents` has received. -/
structure Batch extends BatchHistory where
  stack : CreditStack
  deriving DecidableEq

structure PrefetchIntent where
  rep : Rep Nat
  amount : Value
  deriving DecidableEq

/-- Where `CreateIntents` is: waiting for a batch; waiting for a payment request, with a batch of
`n` credits; passing on batches, after the requests were closed; at its end. -/
inductive Creating where
  | receiving
  | serving (rep : Rep Nat) (n : Int)
  | draining
  | returned
  deriving DecidableEq

structure Prefetch where
  batches : List Batch := []
  creating : Creating := .receiving
  intents : List PrefetchIntent := []
  /-- the transfers between the withdrawal and the deposit, with the credits -/
  inFlight : List (Rep Nat × List BlindedCredit) := []
  transfers : List (Rep Nat) := []
  remainingBatchReps : List (Rep Nat) := []
  resultsByBatch : AList fun _ : Nat => RepResults := ∅
  dedupeReturned : Bool := false
  /-- what was sent to `OutputBankBatchesToConsolidate` -/
  sent : List Nat := []
  /-- the credits of the payment requests -/
  paid : List (Rep Nat × List BlindedCredit) := []
  /-- what `DedupeBatches` has received -/
  arrived : List (Rep Nat) := []
  deriving DecidableEq

inductive CreateAct where
  | receive (stack : CreditStack)
  | request (amount : Value)
  | expire
  | requestsClosed
  | batchesClosed
  deriving DecidableEq

inductive TransferAct where
  | withdraw (j : Nat)
  | deposit (j : Nat) (transferID : Bytes)
  deriving DecidableEq

inductive DedupeAct where
  | transfer (j : Nat)
  | remaining (j : Nat)
  /-- both channels are closed; `order` is the order of the map -/
  | closed (order : List Nat)
  deriving DecidableEq

inductive PrefetchAct where
  | create (a : CreateAct)
  | transfer (a : TransferAct)
  | dedupe (a : DedupeAct)
  deriving DecidableEq

namespace Prefetch

variable (s : Prefetch)

/-! ## `CreateIntents` -/

/-- A batch is received. -/
def addBatch (stack : CreditStack) : Prefetch :=
  let batch : Batch := { stack, original := stack.credits }
  { s with batches := s.batches ++ [batch] }

/-- After the loop over the credits: if the last repetition was not among them, it is sent now. -/
def endBatch (rep : Rep Nat) (creating : Creating) : Prefetch :=
  let s := { s with
    creating
    batches := s.batches.modify rep.key fun batch => { batch with closed := true } }
  if rep.last then s
  else { s with remainingBatchReps := s.remainingBatchReps ++ [{ rep with last := true }] }

/-- The loop over the credits continues with an index. -/
def loop (rep : Rep Nat) (n index : Int) : Prefetch :=
  if index < n then { s with creating := .serving { rep with index } n }
  else s.endBatch rep .receiving

def createStep (a : CreateAct) : Option Prefetch :=
  match s.creating, a with
  | .receiving, .receive stack =>
    let rep : Rep Nat := ⟨s.batches.length, 0, false⟩
    some ((s.addBatch stack).loop rep stack.numCredits 0)
  | .serving rep n, .request amount =>
    let rep := { rep with last := rep.index = n - 1 }
    let intent : PrefetchIntent := ⟨rep, amount⟩
    let s := { s with
      intents := s.intents ++ [intent]
      batches := s.batches.modify rep.key fun batch => { batch with served := batch.served + 1 } }
    some (s.loop rep n (rep.index + 1))
  | .serving rep _, .expire => some (s.endBatch rep .receiving)
  | .serving rep _, .requestsClosed => some (s.endBatch rep .draining)
  | .draining, .receive stack =>
    let rep : Rep Nat := ⟨s.batches.length, 0, false⟩
    some ((s.addBatch stack).endBatch rep .draining)
  | .receiving, .batchesClosed | .draining, .batchesClosed => some { s with creating := .returned }
  | _, _ => none

/-! ## `PaymentRequestTransfer` -/

/-- A transfer of an intent: the withdrawal of a credit from the batch and its deposit in the credit
stack of the payment request. -/
def transferStep : TransferAct → Option Prefetch
  | .withdraw j => do
    let intent ← s.intents[j]?
    let batch ← s.batches[intent.rep.key]?
    match batch.stack.withdraw { credits := 1, amount := intent.amount } with
    | some (.ok (credits, _, stack)) =>
      some { s with
        intents := s.intents.eraseIdx j
        batches := s.batches.set intent.rep.key { batch with stack }
        inFlight := s.inFlight ++ [(intent.rep, credits)] }
    | _ => none
  | .deposit j transferID => do
    let (rep, credits) ← s.inFlight[j]?
    match CreditStack.deposit { maxCredits := 1 } transferID credits with
    | .ok stack =>
      some { s with
        inFlight := s.inFlight.eraseIdx j
        paid := s.paid ++ [(rep, stack.credits)]
        transfers := s.transfers ++ [rep] }
    | .error _ => none

/-! ## `DedupeBatches` -/

/-- `NumCredits` of a batch. -/
def numCredits (b : Nat) : Nat := (s.batches[b]?.map (·.stack.numCredits)).getD 0

def dedupe (rep : Rep Nat) : Prefetch :=
  let (resultsByBatch, complete) := collect s.resultsByBatch rep
  { s with
    resultsByBatch
    sent := if complete ∧ 0 < s.numCredits rep.key then s.sent ++ [rep.key] else s.sent
    arrived := s.arrived ++ [rep] }

/-- The repetitions that have not reached `DedupeBatches`. -/
def underway : List (Rep Nat) :=
  s.intents.map (·.rep) ++ s.inFlight.map (·.1) ++ s.transfers ++ s.remainingBatchReps

def dedupeStep : DedupeAct → Option Prefetch
  | .transfer j => do
    guard (s.dedupeReturned = false)
    let rep ← s.transfers[j]?
    return { s with transfers := s.transfers.eraseIdx j }.dedupe rep
  | .remaining j => do
    guard (s.dedupeReturned = false)
    let rep ← s.remainingBatchReps[j]?
    return { s with remainingBatchReps := s.remainingBatchReps.eraseIdx j }.dedupe rep
  | .closed order =>
    if s.dedupeReturned = false ∧ s.creating = .returned ∧ s.underway = [] ∧
        order.Perm s.resultsByBatch.keys then
      some { s with
        sent := s.sent ++ order.filter fun b => 0 < s.numCredits b
        dedupeReturned := true }
    else none

def step : PrefetchAct → Option Prefetch
  | .create a => s.createStep a
  | .transfer a => s.transferStep a
  | .dedupe a => s.dedupeStep a

/-! ## Runs -/

/-- The act can happen. -/
def Enabled (a : PrefetchAct) : Prop := (s.step a).isSome

instance (a : PrefetchAct) : Decidable (s.Enabled a) :=
  inferInstanceAs (Decidable ((s.step a).isSome = true))

def next (a : PrefetchAct) : Prefetch := (s.step a).getD s

/-- All transfers of a batch and its closing repetition have reached `DedupeBatches`. -/
def AllArrived (b : Nat) (history : BatchHistory) : Prop :=
  history.closed = true ∧ ∀ rep ∈ s.underway, rep.key ≠ b

instance (b : Nat) (history : BatchHistory) : Decidable (s.AllArrived b history) :=
  inferInstanceAs (Decidable (_ ∧ ∀ rep ∈ s.underway, _))

/-- The credits of the transfers from a batch. -/
def creditsFrom (b : Nat) (transfers : List (Rep Nat × List BlindedCredit)) : List BlindedCredit :=
  (transfers.filter (·.1.key = b)).flatMap (·.2)

/-- The batch number `b` is released as it should be: it is sent once if it has served fewer
requests than it had credits, and else never, and not before its transfers are completed. Then it
has the credits that no request has received; all others went into one payment each. -/
structure Released (b : Nat) (batch : Batch) : Prop where
  served_le : batch.served ≤ batch.original.length
  sent : s.sent.count b =
    if s.AllArrived b batch.toBatchHistory ∧ batch.served < batch.original.length then 1 else 0
  paid : s.AllArrived b batch.toBatchHistory → s.paid.countP (·.1.key = b) = batch.served
  left : s.AllArrived b batch.toBatchHistory →
    batch.stack.credits.length = batch.original.length - batch.served
  conserved : batch.original.Perm
    (batch.stack.credits ++ creditsFrom b s.inFlight ++ creditsFrom b s.paid)

/-- All batches are released as they should be. -/
def Safe : Prop := ∀ b batch, s.batches[b]? = some batch → s.Released b batch

end Prefetch

end Wallet
