import OpenPCC.Client.Proof.Refund
import OpenPCC.Client.RoundTrip

/-!
# Which requests settle their payment

Before an answer with status 200 every error cancels the payment (`pay`). After it the refund reader
decides: closing it makes the calls of the refund (`Inv.calls_close`), and a cancellation comes
after them. An answer for a node that is not a candidate does not close the reader.
-/

namespace Client

open Go Anonpay Wallet

variable {codec : RefundCodec}

namespace RefundReader

variable {r : RefundReader} {t : Bytes}

theorem Inv.readMany (h : Inv codec t r) (n : Nat) : Inv codec t (r.readMany codec n) := by
  induction n generalizing r with
  | zero => exact h
  | succ n ih => exact ih h.read.1

theorem closed_readMany (h : Inv codec t r) (n : Nat) :
    (r.readMany codec n).closed = r.closed := by
  induction n generalizing r with
  | zero => rfl
  | succ n ih => exact (ih h.read.1).trans h.read.2

theorem Inv.calls_close (h : Inv codec t r) :
    (r.close codec).2.payment.calls = (r.close codec).2.refundCalls codec := by
  obtain ⟨hinv, hclosed⟩ := h.close
  have hcalls := hinv.calls
  rw [hinv.closed hclosed, if_pos rfl] at hcalls
  exact hcalls

theorem refundCalls_cases (codec : RefundCodec) (r : RefundReader) :
    (r.TrailerDecodes codec ∧ ∃ credit, r.refundCalls codec = [.success credit]) ∨
      ¬r.TrailerDecodes codec ∧ r.refundCalls codec = [] := by
  rw [TrailerDecodes, refundCalls, refund]
  by_cases htrailer : r.trailer = []
  · exact .inl ⟨.inl htrailer, none, by simp [htrailer]⟩
  · cases hparse : parseRefundHeader codec r.trailer with
    | error e => exact .inr ⟨by simp [htrailer], by simp [htrailer, Except.map]⟩
    | ok credit =>
      exact .inl ⟨.inr ⟨credit, rfl⟩, some credit, by simp [htrailer, Except.map]⟩

theorem refundCalls_congr {r' : RefundReader} (h : r.trailer = r'.trailer) :
    r.refundCalls codec = r'.refundCalls codec := by
  simp only [refundCalls, refund, h]

theorem body_doRefund (codec : RefundCodec) (r : RefundReader) :
    (r.doRefund codec).2.body = r.body := by
  obtain ⟨-, heq⟩ | ⟨-, completed, heq⟩ := doRefund_cases codec r <;> rw [heq]

theorem refunded_doRefund (codec : RefundCodec) (r : RefundReader) :
    (r.doRefund codec).2.refunded = true := by
  obtain ⟨hrefunded, heq⟩ | ⟨-, completed, heq⟩ := doRefund_cases codec r
  · rw [heq]
    exact hrefunded
  · rw [heq]

theorem body_closed_close (h : r.closed = false) : (r.close codec).2.body.closed = true := by
  obtain ⟨hclosed, -⟩ | ⟨body, hbody, heq⟩ := close_cases codec r
  · rw [h] at hclosed
    cases hclosed
  · rw [heq, body_doRefund]
    exact hbody

theorem refunded_readMany_of_refunded (h : r.refunded = true) (n : Nat) :
    (r.readMany codec n).refunded = true := by
  induction n generalizing r with
  | zero => exact h
  | succ n ih =>
    refine ih ?_
    obtain ⟨-, heq⟩ | ⟨-, heq⟩ := read_cases codec r
    · rw [heq]
      exact h
    · rw [heq]
      exact refunded_doRefund codec _

theorem refunded_readMany (h : r.refunded = false) (n : Nat) :
    (r.readMany codec n).refunded = readsEOF n r.body.reads := by
  induction n generalizing r with
  | zero => exact h
  | succ n ih =>
    have hsucc : readsEOF (n + 1) r.body.reads =
        (r.body.read.1.2.any (·.isEOF) || readsEOF n r.body.read.2.reads) := by
      cases hreads : r.body.reads with
      | nil => simp [readsEOF, Body.read, hreads, ReadErr.isEOF]
      | cons read reads => simp [readsEOF, Body.read, hreads]
    rw [hsucc, readMany]
    obtain ⟨heof, heq⟩ | ⟨heof, heq⟩ := read_cases codec r
    · rw [heof, heq, Bool.false_or]
      exact ih h
    · rw [heof, heq, Bool.true_or]
      exact refunded_readMany_of_refunded (refunded_doRefund codec _) n

end RefundReader

/-! ## The three ends of a request -/

open RefundReader

variable {r : RefundReader} {t : Bytes}

theorem calls_closeResponse (h : Inv codec t r) (n : Nat) :
    (closeResponse codec n r).payment.calls = r.refundCalls codec := by
  have hmany := h.readMany n
  rw [closeResponse, hmany.calls_close]
  apply refundCalls_congr
  rw [hmany.close.1.trailer, h.trailer]

theorem settles_returned_iff (h : Inv codec t r) (resp : Response) :
    Settles codec (.returned resp r) ↔ r.refunded = false ∧ r.TrailerDecodes codec := by
  have hclose : (∀ n, (closeResponse codec n r).payment.calls ≠ []) ↔ r.refundCalls codec ≠ [] := by
    simp only [calls_closeResponse h, forall_const]
  rw [Settles, hclose, h.calls]
  obtain ⟨hdecodes, credit, hcalls⟩ | ⟨hdecodes, hcalls⟩ := refundCalls_cases codec r
  · cases hrefunded : r.refunded <;> simp [hcalls, hdecodes]
  · simp [hcalls, hdecodes]

theorem settles_rejected_close_iff (h : Inv codec t r) (hclosed : r.closed = false) (err : Err) :
    Settles codec (.rejected err
        { (r.close codec).2 with payment := ((r.close codec).2.payment.cancel).2 }) ↔
      r.TrailerDecodes codec := by
  have hcalls : (r.close codec).2.payment.calls = r.refundCalls codec := by
    rw [h.calls_close]
    apply refundCalls_congr
    rw [h.close.1.trailer, h.trailer]
  rw [Settles]
  simp only [body_closed_close hclosed, Payment.cancel, Payment.call, hcalls, true_and]
  obtain ⟨hdecodes, credit, heq⟩ | ⟨hdecodes, heq⟩ := refundCalls_cases codec r
  · simp [heq, hdecodes]
  · simp [heq, hdecodes]

theorem settles_answer_iff (c : Calls) (routerResp : RouterResponse) (ids : List Bytes)
    {payment : Payment} (h : payment.calls = []) :
    Settles codec (endTrip (finishAnswer codec c routerResp.nodeID ids
        (refundReader routerResp payment))) ↔
      SafeAnswer codec c routerResp ids := by
  have hinv : Inv codec routerResp.trailer (refundReader routerResp payment) := ⟨rfl, h, nofun⟩
  have hmany := hinv.readMany c.decapsulate.reads
  have htrailer : (refundReader routerResp payment).TrailerDecodes codec ↔
      routerResp.trailer = [] ∨ ∃ credit, parseRefundHeader codec routerResp.trailer = .ok credit :=
    Iff.rfl
  have htrailer' : ((refundReader routerResp payment).readMany codec
      c.decapsulate.reads).TrailerDecodes codec ↔
        (refundReader routerResp payment).TrailerDecodes codec := by
    rw [TrailerDecodes, TrailerDecodes, hmany.trailer, hinv.trailer]
  rw [SafeAnswer, ← htrailer]
  unfold finishAnswer handleAnswer
  cases hping : c.ping with
  | true =>
    simp only [if_true, endTrip]
    rw [settles_returned_iff hinv]
    simp [refundReader]
  | false =>
  simp only [Bool.false_eq_true, if_false, false_or]
  cases hnode : routerResp.nodeID with
  | error e =>
    simp only [endTrip]
    rw [settles_rejected_close_iff hinv rfl]
    simp
  | ok nodeID =>
  by_cases hmem : nodeID ∈ ids
  · simp only [hmem, not_true_eq_false, if_false]
    cases herr : c.decapsulate.err with
    | some e =>
      simp only [endTrip]
      rw [settles_rejected_close_iff hmany (closed_readMany hinv _), htrailer']
      simp [hmem]
    | none =>
      simp only [endTrip]
      rw [settles_returned_iff hmany, htrailer', refunded_readMany rfl]
      simp [hmem, refundReader, and_comm]
  · -- The reader is not closed, so the cancellation is the first call on the payment.
    simp only [hmem, not_false_eq_true, if_true, endTrip, Settles]
    simp [refundReader, hmem]

theorem settles_cancelled (err : Err) {payment : Payment} (h : payment.calls = []) :
    Settles codec (.cancelled err payment.cancel.2) := by
  simp [Settles, Payment.cancel, Payment.call, h]

theorem settles_pay_iff (c : Calls) (nodes : List Node) {payment : Payment}
    (h : payment.calls = []) :
    Settles codec (pay codec c payment nodes) ↔
      (c.getBadge = none → c.encodeBadgeHeader = none → ∀ routerResp ids,
        sendRequest c nodes = .ok (routerResp, ids) → SafeAnswer codec c routerResp ids) := by
  unfold pay
  cases hbadge : c.getBadge with
  | some e => exact iff_of_true (settles_cancelled _ h) nofun
  | none =>
  cases hheader : c.encodeBadgeHeader with
  | some e => exact iff_of_true (settles_cancelled _ h) nofun
  | none =>
  cases hsend : sendRequest c nodes with
  | error e => exact iff_of_true (settles_cancelled _ h) nofun
  | ok answer =>
    obtain ⟨routerResp, ids⟩ := answer
    simp only [settles_answer_iff c routerResp ids h]
    simp

theorem answer_eq_some_iff {c : Calls} {credit : BlindedCredit} {nodes : List Node}
    (hrequest : c.request = none) (hpayment : c.beginPayment = .ok credit)
    (hnodes : c.findVerifiedNodes = .ok nodes) {answer : RouterResponse × List Bytes} :
    c.answer = some answer ↔
      c.getBadge = none ∧ c.encodeBadgeHeader = none ∧ sendRequest c nodes = .ok answer := by
  rw [Calls.answer, hrequest, hpayment, hnodes]
  cases c.getBadge with
  | some e => simp
  | none =>
  cases c.encodeBadgeHeader with
  | some e => simp
  | none => cases hsend : sendRequest c nodes <;> simp [Except.toOption, hsend]

/-- `RoundTrip` settles its payment for all outcomes of its calls, except for an answer with status
200 that is not safe. -/
theorem roundTrip_settles_iff (codec : RefundCodec) (c : Calls) :
    Settles codec (roundTrip codec c) ↔
      ∀ routerResp ids, c.answer = some (routerResp, ids) → SafeAnswer codec c routerResp ids := by
  unfold roundTrip requestResources
  cases hrequest : c.request with
  | some e => simp [Settles, Calls.answer, hrequest]
  | none =>
  cases hpayment : c.beginPayment with
  | error e => simp [Settles, Calls.answer, hrequest, hpayment]
  | ok credit =>
  cases hnodes : c.findVerifiedNodes with
  | error e =>
    refine iff_of_true (settles_cancelled _ (rfl : ({ credit } : Payment).calls = [])) ?_
    simp [Calls.answer, hrequest, hpayment, hnodes]
  | ok nodes =>
    rw [settles_pay_iff c nodes rfl]
    simp only [answer_eq_some_iff hrequest hpayment hnodes, and_imp]
    exact ⟨fun h routerResp ids hbadge hheader => h hbadge hheader routerResp ids,
      fun h hbadge hheader routerResp ids => h routerResp ids hbadge hheader⟩

/-- The request of a client with one node that is answered with status 200. -/
def exampleCalls (nodeID : Bytes) : Calls where
  beginPayment := .ok ⟨.ofNat 8, ⟨0, List.replicate 16 0, false⟩, [1]⟩
  findVerifiedNodes := .ok [{ id := [7] }]
  routerDo := .ok { statusCode := 200, nodeID := .ok nodeID, trailer := [1] }

/-- The answer is for another node than the candidate: the body is not closed, and the credit that
the router accepted goes back to the wallet. -/
theorem nonCandidate_cancelled :
    ∃ err r, roundTrip exampleCodec (exampleCalls [9]) = .rejected err r ∧
      r.body.closed = false ∧ r.refunded = false ∧ r.payment.calls = [.cancel] ∧
      ¬Settles exampleCodec (roundTrip exampleCodec (exampleCalls [9])) := by
  refine ⟨_, _, rfl, rfl, rfl, rfl, ?_⟩
  rintro ⟨hclosed, -⟩
  cases hclosed

end Client
