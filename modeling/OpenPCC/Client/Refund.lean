import OpenPCC.Anonpay.Proto
import OpenPCC.Wallet.Process

/-!
# The refund reader (`client.go`)

The router returns a refund in a trailer of its response. `RefundReader` is the body of that
response: it completes the payment when a read returns `io.EOF` and when it is closed. Every
operation returns the reader after it, with the payment it refers to.
-/

namespace Client

open Go Anonpay Wallet

/-! ## Payments -/

inductive PaymentCall where
  | success (unspend : Option UnblindedCredit)
  | cancel
  deriving DecidableEq

/-- A payment that was returned by `BeginPayment` (`anonpay/wallet/payment.go`). -/
structure Payment where
  credit : BlindedCredit
  completed : Bool := false
  /-- the calls of `Success` and `Cancel`, from the first; only the first has an effect -/
  calls : List PaymentCall := []
  deriving DecidableEq

namespace Payment

/-- The error of `complete`. -/
def complete (unspend : Option AnyCredit) : Option Err :=
  match unspend.map newPaymentResult with
  | some (.error e) => some (.errorf "failed to create deposit: %w" [] e)
  | _ => none

def call (c : PaymentCall) (unspend : Option AnyCredit) (p : Payment) : Option Err × Payment :=
  (if p.completed then none else complete unspend,
    { p with completed := true, calls := p.calls ++ [c] })

def success (unspend : Option UnblindedCredit) (p : Payment) : Option Err × Payment :=
  p.call (.success unspend) (unspend.map .unblinded)

def cancel (p : Payment) : Option Err × Payment := p.call .cancel (some (.blinded p.credit))

end Payment

/-! ## Response bodies -/

/-- The error of a read: `io.EOF`, an error that wraps it, or another one. -/
inductive ReadErr where
  | eof
  | wrapsEOF (err : Err)
  | other (err : Err)
  deriving DecidableEq

/-- `errors.Is(err, io.EOF)`. -/
def ReadErr.isEOF : ReadErr → Bool
  | eof | wrapsEOF _ => true
  | other _ => false

/-- A body, with what the reads to come return: a number of bytes and an error. After them a read
returns `io.EOF`. -/
structure Body where
  reads : List (Nat × Option ReadErr)
  closeErr : Option Err := none
  closed : Bool := false
  deriving DecidableEq

namespace Body

def read (b : Body) : (Nat × Option ReadErr) × Body :=
  match b.reads with
  | [] => ((0, some .eof), b)
  | r :: reads => (r, { b with reads })

def discardReads : List (Nat × Option ReadErr) → Option Err × List (Nat × Option ReadErr)
  | [] => (none, [])
  | (_, none) :: reads => discardReads reads
  | (_, some .eof) :: reads => (none, reads)
  | (_, some (.wrapsEOF e)) :: reads => (some e, reads)
  | (_, some (.other e)) :: reads => (some e, reads)

/-- `io.Copy(io.Discard, body)`, which stops at the first error. -/
def discard (b : Body) : Option Err × Body :=
  let (err, reads) := discardReads b.reads
  (err, { b with reads })

def close (b : Body) : Option Err × Body := (b.closeErr, { b with closed := true })

end Body

/-! ## Refunds -/

/-- The third-party decoders of the trailer: base64 and the `Credit` message. -/
structure RefundCodec where
  decodeString : Bytes → Except Err Bytes
  unmarshal : Bytes → Except Err Pb.Credit

def parseRefundHeader (codec : RefundCodec) (refundHeader : Bytes) : Except Err UnblindedCredit :=
  match codec.decodeString refundHeader with
  | .error e => .error (.errorf "failed to base64 decode: %w" [] e)
  | .ok creditBytes =>
    match codec.unmarshal creditBytes with
    | .error e => .error (.errorf "failed to unmarshal: %w" [] e)
    | .ok creditProto =>
      match UnblindedCredit.unmarshalProto (some creditProto) with
      | .error e => .error (.errorf "failed to unmarshal proto: %w" [] e)
      | .ok credit => .ok credit

/-- `refundReader`. `trailer` is the value that the refund header has when it is looked up; it is
empty if there is none. -/
structure RefundReader where
  eof : Bool := false
  trailer : Bytes
  body : Body
  refunded : Bool := false
  payment : Payment
  closed : Bool := false
  deriving DecidableEq

namespace RefundReader

variable (codec : RefundCodec) (r : RefundReader)

/-- The credit to refund: none without a trailer. -/
def refund : Except Err (Option UnblindedCredit) :=
  if r.trailer ≠ [] then (parseRefundHeader codec r.trailer).map some else .ok none

def doRefund : Option Err × RefundReader :=
  if r.refunded then (none, r)
  else
    let r := { r with refunded := true }
    match r.refund codec with
    | .error e => (some e, r)
    | .ok credit =>
      let (err, payment) := r.payment.success credit
      (err, { r with payment })

/-- The number of bytes, the error of the body and the error of the refund, which is joined to
it. -/
def read : (Nat × Option ReadErr × Option Err) × RefundReader :=
  let ((n, err), body) := r.body.read
  let r := { r with body }
  if err.any (·.isEOF) then
    let (refundErr, r) := { r with eof := true }.doRefund codec
    ((n, err, refundErr.map (.errorf "failed to do refund: %w" [])), r)
  else ((n, err, none), r)

/-- Drains the body, unless its end was seen. -/
def drain : Option Err × RefundReader :=
  if r.eof then (none, r)
  else
    let (discardErr, body) := r.body.discard
    (discardErr.map (.errorf "failed to discard remaining body: %w" []), { r with body })

def close : Option Err × RefundReader :=
  if r.closed then (none, r)
  else
    let (err, r) := { r with closed := true }.drain
    let (bodyErr, body) := r.body.close
    let err := join err (bodyErr.map (.errorf "failed to close router response body: %w" []))
    let (refundErr, r) := { r with body }.doRefund codec
    (join err (refundErr.map (.errorf "failed to do refund: %w" [])), r)

inductive Op where
  | read
  | close
  deriving DecidableEq

def next : Op → RefundReader
  | .read => (r.read codec).2
  | .close => (r.close codec).2

/-- The payment was completed by one call, and with the refund if the trailer has one. -/
def Settled : Prop :=
  r.payment.calls.length = 1 ∧
    ∀ credit, r.trailer ≠ [] → parseRefundHeader codec r.trailer = .ok credit →
      r.payment.calls = [.success (some credit)]

/-- There is no trailer, or it is a credit. -/
def TrailerDecodes : Prop :=
  r.trailer = [] ∨ ∃ credit, parseRefundHeader codec r.trailer = .ok credit

end RefundReader

end Client
