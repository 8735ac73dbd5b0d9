import OpenPCC.Client.Refund

/-!
# Requests of the client (`client.go`)

`roundTrip` is `Client.RoundTrip` with the outcomes of the calls it makes as arguments (`Calls`).
The deferred functions look at the variable `err`, so what is returned and that variable are told
apart where they differ (`handleAnswer`). The payment is in the refund reader once there is one.
-/

namespace Client

open Go Anonpay Wallet

/-- The answer of the router: `message` is what `httpfmt.ParseBodyAsError` makes of the body,
`nodeID` the result of `uuidv7.Parse` on the header; `reads` and `closeErr` are those of the
body. -/
structure RouterResponse where
  statusCode : Int
  message : Bytes := []
  nodeID : Except Err Bytes
  trailer : Bytes := []
  reads : List (Nat × Option ReadErr) := []
  closeErr : Option Err := none

/-- A node with the error of its `toCandidate`. -/
structure Node where
  id : Bytes
  toCandidate : Option Err := none
  deriving DecidableEq

/-- The reads that `messages.DecapsulateResponse` makes on the router body, and its error. -/
structure Decapsulation where
  reads : Nat := 0
  err : Option Err := none
  deriving DecidableEq

/-- The outcomes of the calls in `RoundTrip`, in the order in which they are made. -/
structure Calls where
  /-- the checks of the request and its parameters -/
  request : Option Err := none
  beginPayment : Except Err BlindedCredit
  findVerifiedNodes : Except Err (List Node)
  /-- the nodes are found before the payment begins -/
  nodesFirst : Bool := false
  getBadge : Option Err := none
  encodeBadgeHeader : Option Err := none
  encapsulateRequest : Option Err := none
  marshalInfo : Option Err := none
  encodeCreditHeader : Option Err := none
  newRequest : Option Err := none
  routerDo : Except Err RouterResponse
  /-- the request has the header `X-Confsec-Ping` -/
  ping : Bool := false
  decapsulate : Decapsulation := {}

/-! ## The router request -/

/-- The loop over the nodes: the candidates. -/
def toCandidates : List Node → Except Err (List Bytes)
  | [] => .ok []
  | node :: nodes =>
    match node.toCandidate with
    | some e => .error (.errorf "failed to create candidate for node: %w" [] e)
    | none =>
      match toCandidates nodes with
      | .error e => .error e
      | .ok ids => .ok (node.id :: ids)

def notEnoughVerifiedNodes : Err :=
  .new "did not find enough verified nodes to route the request" []

/-- `doRouterRequest` up to the status code: the response and the candidates. -/
def sendRequest (c : Calls) (nodes : List Node) : Except Err (RouterResponse × List Bytes) :=
  if nodes.length = 0 then .error notEnoughVerifiedNodes
  else
    match c.encapsulateRequest with
    | some e => .error (.errorf "failed to encapsulate compute request: %w" [] e)
    | none =>
    match toCandidates nodes with
    | .error e => .error e
    | .ok ids =>
    match c.marshalInfo with
    | some e => .error (.errorf "failed to marshal compute request info to text: %w" [] e)
    | none =>
    match c.encodeCreditHeader with
    | some e => .error e
    | none =>
    match c.newRequest with
    | some e => .error (.errorf "failed to create router request: %w" [] e)
    | none =>
    match c.routerDo with
    | .error e => .error (.errorf "failed to do client router request: %w" [] e)
    | .ok routerResp =>
      if routerResp.statusCode ≠ 200 then
        .error (.new "router error, status code %d: %s"
          [.int routerResp.statusCode, .str routerResp.message])
      else .ok (routerResp, ids)

/-- What `RoundTrip` returns. -/
inductive Response where
  /-- the response of the router, to a ping -/
  | router
  /-- the decapsulated response, with a `decapRespBody` -/
  | decapsulated
  deriving DecidableEq

/-- `n` calls of `Read`. -/
def RefundReader.readMany (codec : RefundCodec) : Nat → RefundReader → RefundReader
  | 0, r => r
  | n + 1, r => readMany codec n (r.read codec).2

/-- `doRouterRequest` after an answer with status 200: what is returned, the variable `err` and the
body. A node that is not a candidate is an error that is not assigned to the variable. -/
def handleAnswer (codec : RefundCodec) (c : Calls) (nodeID : Except Err Bytes) (ids : List Bytes)
    (r : RefundReader) : Except Err Response × Option Err × RefundReader :=
  if c.ping then (.ok .router, none, r)
  else
    match nodeID with
    | .error e =>
      (.error (.errorf "failed to parse router response X-Node-ID header: %w" [] e), some e, r)
    | .ok nodeID =>
      if nodeID ∉ ids then
        (.error (.new "router returned response for non-candidate node %s" [.str nodeID]), none, r)
      else
        let r := r.readMany codec c.decapsulate.reads
        match c.decapsulate.err with
        | some e => (.error (.errorf "failed to decapsulate compute response: %w" [] e), some e, r)
        | none => (.ok .decapsulated, none, r)

/-- `handleAnswer` with the deferred close of the body. -/
def finishAnswer (codec : RefundCodec) (c : Calls) (nodeID : Except Err Bytes) (ids : List Bytes)
    (r : RefundReader) : Except Err Response × RefundReader :=
  match handleAnswer codec c nodeID ids r with
  | (result, some _, r) => (result, (r.close codec).2)
  | (result, none, r) => (result, r)

/-! ## `RoundTrip` -/

/-- How `RoundTrip` ends: an error without a payment; an error without an answer of status 200; an
error after such an answer; a response. -/
inductive Trip where
  | failed (err : Err)
  | cancelled (err : Err) (payment : Payment)
  | rejected (err : Err) (body : RefundReader)
  | returned (resp : Response) (body : RefundReader)
  deriving DecidableEq

/-- The error of a call in `requestResources`. -/
def errOf {α : Type} : Except Err α → Option Err
  | .error e => some e
  | .ok _ => none

/-- The errors in the order in which the results arrive. -/
def resourcesErr (c : Calls) : Option Err :=
  if c.nodesFirst then join (join none (errOf c.findVerifiedNodes)) (errOf c.beginPayment)
  else join (join none (errOf c.beginPayment)) (errOf c.findVerifiedNodes)

/-- `requestResources` with the wrapping of its error. A payment that began is cancelled if the
nodes cannot be found. -/
def requestResources (c : Calls) : Except Trip (Payment × List Node) :=
  match c.beginPayment, c.findVerifiedNodes, resourcesErr c with
  | .ok credit, .ok nodes, _ => .ok ({ credit }, nodes)
  | .ok credit, .error e, err =>
    let (cancelErr, payment) := ({ credit } : Payment).cancel
    let err := (join err cancelErr).getD e
    .error (.cancelled (.errorf "tcloud: failed to get resources: %w" [] err) payment)
  | .error e, _, err =>
    .error (.failed (.errorf "tcloud: failed to get resources: %w" [] (err.getD e)))

/-- The body that replaces the one of the router response. -/
def refundReader (routerResp : RouterResponse) (payment : Payment) : RefundReader where
  trailer := routerResp.trailer
  body := { reads := routerResp.reads, closeErr := routerResp.closeErr }
  payment

/-- The end of `RoundTrip` after an answer with status 200. -/
def endTrip : Except Err Response × RefundReader → Trip
  | (.error e, r) =>
    .rejected (.errorf "tcloud: %w" [] e) { r with payment := r.payment.cancel.2 }
  | (.ok resp, r) => .returned resp r

/-- `RoundTrip` after the payment began. The deferred function cancels it if `err` is not nil. -/
def pay (codec : RefundCodec) (c : Calls) (payment : Payment) (nodes : List Node) : Trip :=
  match c.getBadge with
  | some e => .cancelled (.errorf "failed to get badge: %w" [] e) payment.cancel.2
  | none =>
  match c.encodeBadgeHeader with
  | some e => .cancelled e payment.cancel.2
  | none =>
  match sendRequest c nodes with
  | .error e => .cancelled (.errorf "tcloud: %w" [] e) payment.cancel.2
  | .ok (routerResp, ids) =>
    endTrip (finishAnswer codec c routerResp.nodeID ids (refundReader routerResp payment))

def roundTrip (codec : RefundCodec) (c : Calls) : Trip :=
  match c.request with
  | some e => .failed e
  | none =>
  match requestResources c with
  | .error trip => trip
  | .ok (payment, nodes) => pay codec c payment nodes

/-- Closing the body of the response after `n` reads, which are made by the caller and, before a
`decapRespBody` closes the router body, by closing the decapsulated body. -/
def closeResponse (codec : RefundCodec) (n : Nat) (r : RefundReader) : RefundReader :=
  ((r.readMany codec n).close codec).2

/-! ## Settling the payment -/

/-- After an answer with status 200 an error means that the body was closed and the refund completed
the payment, not the cancellation; any other error that the payment was cancelled once; a response
that the payment is not completed and that closing the response completes it. -/
def Settles (codec : RefundCodec) : Trip → Prop
  | .failed _ => True
  | .cancelled _ payment => payment.calls = [.cancel]
  | .rejected _ r =>
    r.body.closed = true ∧ ∃ credit, r.payment.calls.head? = some (.success credit)
  | .returned _ r =>
    r.payment.calls = [] ∧ ∀ n, (closeResponse codec n r).payment.calls ≠ []

/-- One of the first `n` reads of a body returns `io.EOF`. -/
def readsEOF : Nat → List (Nat × Option ReadErr) → Bool
  | 0, _ => false
  | _ + 1, [] => true
  | n + 1, (_, err) :: reads => err.any (·.isEOF) || readsEOF n reads

/-- The answer of the router with status 200, and the candidates. -/
def Calls.answer (c : Calls) : Option (RouterResponse × List Bytes) :=
  match c.request, c.beginPayment, c.findVerifiedNodes, c.getBadge, c.encodeBadgeHeader with
  | none, .ok _, .ok nodes, none, none => (sendRequest c nodes).toOption
  | _, _, _, _, _ => none

/-- The trailer is missing or a credit, the node is a candidate if its id can be parsed, and a
decapsulation that succeeds does not reach the end of the router body. -/
def SafeAnswer (codec : RefundCodec) (c : Calls) (routerResp : RouterResponse) (ids : List Bytes) :
    Prop :=
  (routerResp.trailer = [] ∨ ∃ credit, parseRefundHeader codec routerResp.trailer = .ok credit) ∧
    (c.ping = true ∨ ∀ nodeID, routerResp.nodeID = .ok nodeID →
      nodeID ∈ ids ∧ (c.decapsulate.err = none →
        readsEOF c.decapsulate.reads routerResp.reads = false))

end Client
