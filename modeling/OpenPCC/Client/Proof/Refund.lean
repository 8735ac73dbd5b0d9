import OpenPCC.Client.Refund
import OpenPCC.Lib.Trace

/-!
# Which responses settle the payment

The refund is processed once (`Inv.calls`), and at the latest when the reader is closed
(`Inv.closed`). A trailer that cannot be decoded is the only case in which the payment is not
completed then, and it stays so.
-/

namespace Client

open Go Anonpay Wallet

namespace RefundReader

variable {codec : RefundCodec} {r : RefundReader} {t : Bytes}

/-- The calls that the refund makes on the payment. -/
def refundCalls (codec : RefundCodec) (r : RefundReader) : List PaymentCall :=
  match r.refund codec with
  | .ok credit => [.success credit]
  | .error _ => []

/-! ## What an operation does -/

theorem doRefund_cases (codec : RefundCodec) (r : RefundReader) :
    (r.refunded = true ∧ (r.doRefund codec).2 = r) ∨
      r.refunded = false ∧ ∃ completed, (r.doRefund codec).2 =
        { r with
          refunded := true
          payment := { r.payment with
            completed
            calls := r.payment.calls ++ r.refundCalls codec } } := by
  cases h : r.refunded with
  | true => exact .inl ⟨rfl, by simp [doRefund, h]⟩
  | false =>
    refine .inr ⟨rfl, ?_⟩
    have hrefund : ({ r with refunded := true } : RefundReader).refund codec = r.refund codec := rfl
    cases hcredit : r.refund codec with
    | error e =>
      refine ⟨r.payment.completed, ?_⟩
      simp [doRefund, refundCalls, h, hrefund, hcredit]
    | ok credit =>
      refine ⟨true, ?_⟩
      simp [doRefund, refundCalls, h, hrefund, hcredit, Payment.success, Payment.call]

theorem read_cases (codec : RefundCodec) (r : RefundReader) :
    (r.body.read.1.2.any (·.isEOF) = false ∧
        (r.read codec).2 = { r with body := r.body.read.2 }) ∨
      r.body.read.1.2.any (·.isEOF) = true ∧
        (r.read codec).2 = ({ r with body := r.body.read.2, eof := true }.doRefund codec).2 := by
  cases h : r.body.read.1.2.any (·.isEOF) with
  | true => exact .inr ⟨rfl, by simp [read, h]⟩
  | false => exact .inl ⟨rfl, by simp [read, h]⟩

theorem close_cases (codec : RefundCodec) (r : RefundReader) :
    (r.closed = true ∧ (r.close codec).2 = r) ∨
      ∃ body, body.closed = true ∧
        (r.close codec).2 = ({ r with body, closed := true }.doRefund codec).2 := by
  cases h : r.closed with
  | true => exact .inl ⟨rfl, by simp [close, h]⟩
  | false =>
    refine .inr ⟨(({ r with closed := true } : RefundReader).drain.2.body.close).2, rfl, ?_⟩
    cases heof : r.eof <;> simp [close, drain, h, heof]

/-! ## The invariant -/

/-- A reader of a response with the trailer `t`: the payment is completed by the refund. -/
structure Inv (codec : RefundCodec) (t : Bytes) (r : RefundReader) : Prop where
  trailer : r.trailer = t
  calls : r.payment.calls = if r.refunded then r.refundCalls codec else []
  closed : r.closed = true → r.refunded = true

theorem Inv.doRefund (htrailer : r.trailer = t)
    (hcalls : r.payment.calls = if r.refunded then r.refundCalls codec else []) :
    Inv codec t (r.doRefund codec).2 ∧ (r.doRefund codec).2.closed = r.closed := by
  obtain ⟨hrefunded, heq⟩ | ⟨hrefunded, completed, heq⟩ := doRefund_cases codec r
  · rw [heq]
    exact ⟨⟨htrailer, hcalls, fun _ => hrefunded⟩, rfl⟩
  · rw [heq]
    rw [hrefunded] at hcalls
    refine ⟨⟨htrailer, ?_, fun _ => rfl⟩, rfl⟩
    rw [hcalls]
    rfl

theorem Inv.read (h : Inv codec t r) :
    Inv codec t (r.read codec).2 ∧ (r.read codec).2.closed = r.closed := by
  obtain ⟨-, heq⟩ | ⟨-, heq⟩ := read_cases codec r
  · rw [heq]
    exact ⟨⟨h.trailer, h.calls, h.closed⟩, rfl⟩
  · rw [heq]
    exact Inv.doRefund h.trailer h.calls

theorem Inv.close (h : Inv codec t r) :
    Inv codec t (r.close codec).2 ∧ (r.close codec).2.closed = true := by
  obtain ⟨hclosed, heq⟩ | ⟨body, -, heq⟩ := close_cases codec r
  · rw [heq]
    exact ⟨h, hclosed⟩
  · rw [heq]
    exact Inv.doRefund h.trailer h.calls

theorem Inv.next (h : Inv codec t r) (op : Op) : Inv codec t (r.next codec op) := by
  cases op with
  | read => exact h.read.1
  | close => exact h.close.1

theorem Inv.next_closed_iff (h : Inv codec t r) (op : Op) :
    (r.next codec op).closed = true ↔ r.closed = true ∨ op = .close := by
  cases op with
  | read => simp [RefundReader.next, h.read.2]
  | close => simp [RefundReader.next, h.close.2]

/-- The refund settles the payment unless the trailer cannot be decoded. -/
theorem Inv.settled_iff (h : Inv codec t r) (hrefunded : r.refunded = true) :
    r.Settled codec ↔ r.TrailerDecodes codec := by
  have hcalls := h.calls
  rw [hrefunded, if_pos rfl] at hcalls
  rw [Settled, TrailerDecodes, hcalls, refundCalls, refund]
  by_cases htrailer : r.trailer = []
  · simp [htrailer]
  · cases hparse : parseRefundHeader codec r.trailer with
    | error e => simp [htrailer, Except.map]
    | ok credit => simp [htrailer, Except.map]

/-- For every response and every calls of `Read` and `Close` with at least one `Close`, the payment
is settled exactly if the trailer is missing or a credit. -/
theorem payment_settled_iff (codec : RefundCodec) (trailer : Bytes) (body : Body)
    (credit : BlindedCredit) (ops : List Op) (hclose : .close ∈ ops) :
    let r : RefundReader := { trailer, body, payment := { credit } }
    (ops.foldl (next codec) r).Settled codec ↔ r.TrailerDecodes codec := by
  intro r
  have hinit : Inv codec trailer r := ⟨rfl, rfl, nofun⟩
  have hsteps : Trace.Along (next codec) (fun r _ => Inv codec trailer r) r ops :=
    Trace.along_of_step (fun _ op h _ => Inv.next h op) (fun _ _ h _ => h) hinit Trace.along_true
  have hinv : Trace.Always (next codec) (Inv codec trailer) r ops :=
    Trace.always_of_step (fun _ op h _ => Inv.next h op) hinit Trace.along_true
  have hclosed := Trace.foldl_iff_exists_mem (F := fun r => r.closed = true)
    (fun _ op h => Inv.next_closed_iff h op) hsteps
  have hlast := hinv.last
  have hrefunded := hlast.closed (hclosed.2 (.inr ⟨.close, hclose, rfl⟩))
  rw [hlast.settled_iff hrefunded, TrailerDecodes, TrailerDecodes, hlast.trailer]

/-- The credit of 4 that a router refunds. -/
def exampleRefund : UnblindedCredit := ⟨.ofNat 4, ⟨0, List.replicate 16 0, false⟩, [1]⟩

/-- Decoders that accept the trailer `[1]` only. -/
def exampleCodec : RefundCodec where
  decodeString b := if b = [1] then .ok b else .error (.new "illegal base64 data" [])
  unmarshal _ := .ok exampleRefund.marshalProto

/-- The response of a router with a trailer, for a payment with a credit of 8. -/
def exampleReader (trailer : Bytes) : RefundReader where
  trailer
  body := { reads := [(3, none)] }
  payment := { credit := ⟨.ofNat 8, ⟨0, List.replicate 16 0, false⟩, [1]⟩ }

theorem payment_settled_iff_refunded :
    ([.read, .close, .close].foldl (next exampleCodec) (exampleReader [1])).Settled exampleCodec :=
  (payment_settled_iff exampleCodec [1] { reads := [(3, none)] } _ [.read, .close, .close]
    (by decide)).2 (.inr ⟨exampleRefund, by rfl⟩)

/-- A trailer that is not base64: the payment is not completed. -/
theorem malformed_trailer_leaks :
    let r := (exampleReader [2]).next exampleCodec .close
    r.closed = true ∧ r.payment.calls = [] ∧ r.payment.completed = false ∧
      ¬r.Settled exampleCodec := by
  refine ⟨by decide, by decide, by decide, fun h => ?_⟩
  exact absurd h.1 (by decide)

end RefundReader

end Client
