import OpenPCC.Client.Messages

/-!
# One request from the client to a node and back (`client.go`, `verified_node.go`)

The client finds nodes with `simpleNodeFinder.FindVerifiedNodes` (`simple_node_finder.go`): it keeps
the manifests that it can decode and whose evidence it trusts. `doRouterRequest` encapsulates the
key of a request for every node, and keeps an opener for the response of each under the id of the
node (`prepare`). The router picks a node and names it in the response; the client opens the
response with the opener that it has under that id (`openResponse`).

`serveHTTP` is the handler of the node, from the header that the router has rewritten to the
request, and `answer` what it sends back. A request with the header `X-Confsec-Ping` is a ping: the
client does not open the response, and a ping of the node is not opened either.
-/

namespace Client.Exchange

open Go Router

/-- `openpcc.VerifiedNode`. -/
structure VerifiedNode where
  manifest : ComputeManifest
  trustedData : Attest.ComputeData
  deriving DecidableEq

/-! ## Finding nodes -/

section
variable (w : Wire) (verify : Attest.SignedEvidenceList → Except Err Attest.ComputeData)

/-- The node of a manifest, if it can be decoded and its evidence is trusted. -/
def verifyManifest (item : Pb.ComputeManifest) : Option VerifiedNode :=
  match ComputeManifest.unmarshalProto w item with
  | .error _ => none
  | .ok manifest =>
    match verify manifest.evidence with
    | .error _ => none
    | .ok data => some ⟨manifest, data⟩

/-- The loop of `FindVerifiedNodes` over the items of the reply. -/
def verifiedNodes (items : List Pb.ComputeManifest) : List VerifiedNode :=
  items.filterMap (verifyManifest w verify)

end

/-- `safeInt32`. -/
def safeInt32 (v : Int) : Option Int32 :=
  if v < -2 ^ 31 ∨ v > 2 ^ 31 - 1 then none else some (Int32.ofInt v)

/-- `FindVerifiedNodes`, with an honest router that reads its map in the order `nodes`. The
transport of the messages is left out. -/
def findVerifiedNodes (w : Wire)
    (verify : Attest.SignedEvidenceList → Except Err Attest.ComputeData) (order : TagOrder)
    (nodes : List (Σ _ : UUID, RoutingInfo)) (maxNodes : Int) (tagslist : Finset Bytes) :
    Except Err (List VerifiedNode) :=
  match safeInt32 maxNodes with
  | none => .error (.new "expected max nodes to be safely convertable to int32" [])
  | some limit => do
    let q ← ComputeManifestRequest.unmarshalProto ⟨order.slice tagslist, limit⟩
    return verifiedNodes w verify
      ((queryComputeManifests q nodes).map (ComputeManifest.marshalProto w order))

/-! ## The request -/

section
variable {Req Resp PK SK Sealer Opener Answerer : Type} (B : Bhttp Req Resp)
  (T : TwoWay PK SK Sealer Opener Answerer) (w : Wire) (codec : InfoCodec)

/-- `VerifiedNode.toCandidate`. -/
def toCandidate (sealer : Sealer) (seed : Nat) (n : VerifiedNode) :
    Except Err (ComputeCandidate × Opener) := do
  let nodePubKey ← (T.unmarshalPublicKey n.trustedData).mapError
    (.errorf "failed to unmarshal public key for node: %w" [])
  let (encapKey, opener) ← (T.encapsulateKey sealer seed nodePubKey).mapError
    (.errorf "failed to encapsulate key for node: %w" [])
  return (⟨n.manifest.id, encapKey⟩, opener)

/-- The candidates of a request and the openers of their responses. -/
structure Prepared (Opener : Type) where
  candidates : List ComputeCandidate := []
  sealers : AList fun _ : UUID => Opener := ∅

/-- The loop over the nodes, from the `i`-th on; `seeds i` is the randomness for that node. -/
def prepare (sealer : Sealer) (seeds : Nat → Nat) :
    Nat → List VerifiedNode → Prepared Opener → Except Err (Prepared Opener)
  | _, [], p => .ok p
  | i, node :: nodes, p => do
    let (candidate, opener) ← (toCandidate T sealer (seeds i) node).mapError
      (.errorf "failed to create candidate for node: %w" [])
    prepare sealer seeds (i + 1) nodes
      ⟨p.candidates ++ [candidate], p.sealers.insert node.manifest.id opener⟩

/-- What `doRouterRequest` sends to the router, and the openers that it keeps. -/
structure Sent (Opener : Type) where
  header : Header
  body : Bytes
  sealers : AList fun _ : UUID => Opener

/-- The header of the request to the router. -/
def requestHeader (reqMediaType routingInfo creditHeader confsecPing : Bytes) : Header :=
  let h :=
    ((Header.set ∅ .contentType reqMediaType).set .routingInfo routingInfo).set .credit creditHeader
  if confsecPing ≠ [] then h.set .confsecPing confsecPing else h

/-- `doRouterRequest` up to the request; `creditHeader` is the header of the payment and
`confsecPing` that of a ping, which is empty for other requests. -/
def routerRequest (seed : Nat) (seeds : Nat → Nat) (creditHeader confsecPing : Bytes) (req : Req)
    (nodes : List VerifiedNode) : Except Err (Sent Opener) :=
  if nodes.length = 0 then
    .error (.new "did not find enough verified nodes to route the request" [])
  else do
    let (sealer, reqMediaType) ← (encapsulateRequest B T seed req).mapError
      (.errorf "failed to encapsulate compute request: %w" [])
    let p ← prepare T sealer seeds 0 nodes {}
    let routingInfo ← (marshalInfoText w codec p.candidates).mapError
      (.errorf "failed to marshal compute request info to text: %w" [])
    return ⟨requestHeader reqMediaType routingInfo creditHeader confsecPing, T.body sealer,
      p.sealers⟩

/-- What `doRouterRequest` returns: the response of a node, or that of the router as it is. -/
inductive Response (Resp : Type) where
  | opened (resp : Resp)
  | unopened (h : Header) (body : Bytes)

/-- The end of `doRouterRequest`: the response that the router says is of a node. -/
def openResponse (confsecPing : Bytes) (sealers : AList fun _ : UUID => Opener) (h : Header)
    (body : Bytes) : Except Err (Response Resp) :=
  if confsecPing ≠ [] then .ok (.unopened h body)
  else
    match w.parseV7 (h.get .nodeID) with
    | .error e => .error (.errorf "failed to parse router response X-Node-ID header: %w" [] e)
    | .ok nodeID =>
      match sealers.lookup nodeID with
      | none =>
        .error (.new "router returned response for non-candidate node %s"
          [.str (w.uuidString nodeID)])
      | some opener =>
        match decapsulateResponse B T opener (h.get .contentType) body with
        | .error e => .error (.errorf "failed to decapsulate compute response: %w" [] e)
        | .ok resp => .ok (.opened resp)

/-! ## The node -/

/-- What the node makes of a request. -/
inductive Served (Req Answerer : Type) where
  /-- it answers with the text `routercom` -/
  | ping
  | request (req : Req) (answerer : Answerer)

/-- `RouterComService.ServeHTTP`, with `generateHandler` up to the request. -/
def serveHTTP (sk : SK) (h : Header) (body : Bytes) : Except HttpError (Served Req Answerer) :=
  if h.get .confsecPing = utf8 "routercom".toList then .ok .ping
  else
    match requestParams h with
    | .error e => .error ⟨400, e⟩
    | .ok params =>
      match decapsulateRequest B T sk params.encapsulatedKey params.mediaType body with
      | .error _ => .error ⟨400, .new "invalid request" []⟩
      | .ok (req, answerer) => .ok (.request req answerer)

/-- The rest of `generateHandler`, for the response `resp`. -/
def answer (answerer : Answerer) (resp : Resp) : Except HttpError (Header × Bytes) :=
  match encapsulateResponse B T answerer resp with
  | .error _ => .error ⟨500, .new "internal server error" []⟩
  | .ok (out, mediaType) => .ok (Header.set ∅ .contentType mediaType, out)

end

end Client.Exchange
