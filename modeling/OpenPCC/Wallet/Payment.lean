import OpenPCC.Wallet.Process

/-!
# Payments of the wallet (`anonpay/wallet/payment.go`, `wallet.go`)

`Payments` has the `paymentsWG` counter and, for every call of `BeginPayment` that was counted,
where its request and its payment are. A step is the start of such a call, an operation on a channel
or a context by the call, by the goroutine that waits for a dangling response or by the pipeline, or
a call of `Success`, `Cancel` or `Close`. `response` is a channel without a buffer: a response is
sent when it is received. `Success` and `Cancel` hold the mutex of the payment until they return.

The amount that `currency.Rounded` returns for a payment is an argument.
-/

namespace Wallet

open Go Anonpay

/-- Where a payment is: its request waits to be enqueued, or for a response; `BeginPayment` has
returned the error of the context and a goroutine waits for the response; an error was received; the
payment was returned; `Success` or `Cancel` sends the result; the payment is completed. -/
inductive PaymentPhase where
  | enqueueing (req : PaymentRequest)
  | waiting (req : PaymentRequest)
  | dangling (req : PaymentRequest)
  | failed (err : Err)
  | returned (credit : Option BlindedCredit)
  | completing (result : PaymentResult)
  | completed
  deriving DecidableEq

/-- A completion of the payment is owed. -/
def PaymentPhase.owed : PaymentPhase → Bool
  | failed _ | completed => false
  | _ => true

/-- The request whose response is waited for. -/
def PaymentPhase.awaits : PaymentPhase → Option PaymentRequest
  | waiting req | dangling req => some req
  | _ => none

structure Payments where
  closed : Bool := false
  /-- the inputs of the pipeline are closed -/
  inputsClosed : Bool := false
  paymentsWG : Int := 0
  phases : List PaymentPhase := []
  /-- the results that were enqueued, with their payment -/
  results : List (Nat × PaymentResult) := []
  deriving DecidableEq

inductive PaymentAct where
  | begin (rounded : Except Err Value)
  | enqueue (i : Nat)
  | cancelCtx (i : Nat) (err : Err)
  | deposit (i : Nat) (transferID : Bytes) (creds : List BlindedCredit)
  | fail (i : Nat) (err : Err)
  | dropFail (i : Nat)
  | success (i : Nat) (unspend : Option UnblindedCredit)
  | cancel (i : Nat)
  | sendResult (i : Nat)
  | close
  | finishClose

namespace Payments

variable (prefetchAmount : Int) (s : Payments) (i : Nat)

def setPhase (phase : PaymentPhase) : Payments := { s with phases := s.phases.set i phase }

/-- `paymentsWG.Done()`. -/
def done : Payments := { s with paymentsWG := s.paymentsWG - 1 }

/-- `BeginPayment`, up to the request. -/
def beginPayment (rounded : Except Err Value) : Except Err Payments :=
  match rounded with
  | .error e => .error (.errorf "failed to round amount: %w" [] e)
  | .ok val =>
    if val.amountOrZero > prefetchAmount then
      .error (.new
        "wallet does not support ad-hoc withdrawals yet. please withdraw %d or less, got %d"
        [.int prefetchAmount, .int val.amountOrZero])
    else if s.closed then .error (.new "wallet is closed" [])
    else
      .ok { s with
        paymentsWG := s.paymentsWG + 1
        phases := s.phases ++ [.enqueueing (newPaymentRequest val)] }

/-- `complete`, up to the send of a result. -/
def complete (unspend : Option AnyCredit) : Payments :=
  match unspend with
  | none => (s.setPhase i .completed).done
  | some credit =>
    match newPaymentResult credit with
    | .error _ => (s.setPhase i .completed).done
    | .ok result => s.setPhase i (.completing result)

/-- `Cancel` of a payment that is not completed. A nil credit panics. -/
def cancelPayment : Option BlindedCredit → Option Payments
  | none => none
  | some credit => some (s.complete i (some (.blinded credit)))

/-- `beginPaymentForRequest` or `waitForDanglingResponse` receives a response. -/
def receive (phase : PaymentPhase) (resp : PaymentResponse) : Option Payments :=
  match phase, resp.err with
  | .waiting _, some err => some (s.setPhase i (.failed err))
  | .waiting _, none => some (s.setPhase i (.returned resp.credit))
  | .dangling _, some err => some (s.setPhase i (.failed err))
  | .dangling _, none => s.cancelPayment i resp.credit
  | _, _ => none

/-- `PaymentRequestError`. -/
def paymentRequestError (err : Err) : Err := .errorf "payment request failed: %w" [] err

/-- A send on a closed channel panics. -/
def step : PaymentAct → Option Payments
  | .begin rounded =>
    match s.beginPayment prefetchAmount rounded with
    | .error _ => some s
    | .ok s => some s
  | .enqueue i =>
    match s.phases[i]? with
    | some (.enqueueing req) => if s.inputsClosed then none else some (s.setPhase i (.waiting req))
    | _ => none
  | .cancelCtx i err =>
    match s.phases[i]? with
    | some (.enqueueing _) => some (s.setPhase i (.failed err)).done
    | some (.waiting req) => some (s.setPhase i (.dangling req))
    | _ => none
  | .deposit i transferID creds => do
    let phase ← s.phases[i]?
    let req ← phase.awaits
    s.receive i phase (req.deposit transferID creds).1
  | .fail i err => do
    let phase ← s.phases[i]?
    let _ ← phase.awaits
    s.receive i phase ⟨none, some (paymentRequestError err)⟩
  -- `Fail` does not block: its error is lost if nobody receives at that moment
  | .dropFail i => (s.phases[i]?).map fun _ => s
  | .success i unspend =>
    match s.phases[i]? with
    | some (.returned _) => some (s.complete i (unspend.map .unblinded))
    | some .completed => some s
    | _ => none
  | .cancel i =>
    match s.phases[i]? with
    | some (.returned credit) => s.cancelPayment i credit
    | some .completed => some s
    | _ => none
  | .sendResult i =>
    match s.phases[i]? with
    | some (.completing result) =>
      if s.inputsClosed then none
      else some { (s.setPhase i .completed).done with results := s.results ++ [(i, result)] }
    | _ => none
  | .close => some { s with closed := true }
  | .finishClose =>
    if s.closed = true ∧ s.inputsClosed = false ∧ s.paymentsWG = 0 then
      some { s with inputsClosed := true }
    else none

def Enabled (a : PaymentAct) : Prop := (s.step prefetchAmount a).isSome

instance (a : PaymentAct) : Decidable (s.Enabled prefetchAmount a) :=
  inferInstanceAs (Decidable (_ = true))

def next (a : PaymentAct) : Payments := (s.step prefetchAmount a).getD s

/-! ## Accounting -/

/-- The payments that a completion is owed for. -/
def owed : Nat := s.phases.countP (·.owed)

/-- The counter is the number of the payments still owed a completion, and no payment has enqueued
two results. -/
def Balanced : Prop := s.paymentsWG = s.owed ∧ (s.results.map Prod.fst).Nodup

/-- An error is received as the response to a request. -/
def ErrorReceived : PaymentAct → Prop
  | .deposit i transferID creds => ∃ phase req, s.phases[i]? = some phase ∧
    phase.awaits = some req ∧ (req.deposit transferID creds).1.err ≠ none
  | .fail i _ => ∃ phase req, s.phases[i]? = some phase ∧ phase.awaits = some req
  | _ => False

instance : Decidable s.Balanced := inferInstanceAs (Decidable (_ ∧ _))

end Payments

end Wallet
