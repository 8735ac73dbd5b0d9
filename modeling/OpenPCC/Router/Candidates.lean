import OpenPCC.Anonpay.Credit
import OpenPCC.Go.Base64
import OpenPCC.Go.Decimal
import OpenPCC.Go.Utf8
import OpenPCC.Router.Evaluation
import OpenPCC.Router.Wire

/-!
# From the nodes of a router to the node of a request

A client asks a router for manifests (`router/routing_set.go`, `router/api/compute_manifest.go`) and
sends the ids of the nodes that it trusts as candidates, each with a key that is encapsulated for
that node (`router/api/compute_request_info.go`). The router picks one of the candidates that it
can route to at random (`router/router.go`), hands the key of that candidate to the node and tells
the client which node it was (`router/http_handler.go`). The node reads the key from the header
(`cmd/mem-compute/router_com_lib.go`).

`proto.Marshal` of the routing info is an `InfoCodec`. The transaction that pays for a request is
begun between `routeRequest` and `rewrite`.
-/

namespace Router

open Go

/-! ## Manifests -/

namespace Pb

structure ComputeManifest where
  id : Bytes := []
  tags : List Bytes := []
  evidence : List SignedEvidencePiece := []

structure ComputeManifestRequest where
  tags : List Bytes := []
  limit : Int32 := 0

structure ComputeCandidate where
  id : Bytes := []
  encapsulatedKey : Bytes := []
  deriving DecidableEq

structure ComputeRequestInfo where
  candidates : List ComputeCandidate := []
  deriving DecidableEq

end Pb

/-- `api.ComputeManifest`. -/
structure ComputeManifest where
  id : UUID
  tags : Finset Bytes
  evidence : Attest.SignedEvidenceList
  deriving DecidableEq

/-- `api.ComputeManifestRequest`. -/
structure ComputeManifestRequest where
  tags : Finset Bytes
  limit : Int

def maxComputeManifests : Int := 500

section
variable (w : Wire)

def ComputeManifest.marshalProto (order : TagOrder) (m : ComputeManifest) : Pb.ComputeManifest :=
  ⟨w.uuidString m.id, order.slice m.tags, marshalEvidence m.evidence⟩

def ComputeManifest.unmarshalProto (pbm : Pb.ComputeManifest) : Except Err ComputeManifest := do
  let id ← (w.parseV7 pbm.id).mapError (.errorf "failed to parse uuid: %w" [])
  let tagslist ← (tagsFromSlice pbm.tags).mapError (.errorf "invalid tags: %w" [])
  if tagslist.card = 0 then .error (.new "requires at least one tag, got none" [])
  else do
    let evidence ← (unmarshalEvidence pbm.evidence).mapError
      (.errorf "failed to unmarshal signed evidence: %w" [])
    return ⟨id, tagslist, evidence⟩

end

def ComputeManifestRequest.unmarshalProto (pbr : Pb.ComputeManifestRequest) :
    Except Err ComputeManifestRequest := do
  let tagsList ← tagsFromSlice pbr.tags
  let limit := pbr.limit.toInt
  if limit < 0 ∨ limit > maxComputeManifests then
    .error (.new "limit should be between 0-%d, got %d" [.int maxComputeManifests, .int limit])
  else return ⟨tagsList, limit⟩

/-- The loop over the nodes, with the number of manifests listed so far. -/
def listManifests (q : ComputeManifestRequest) :
    Nat → List (Σ _ : UUID, RoutingInfo) → List ComputeManifest
  | _, [] => []
  | n, node :: nodes =>
    if n = q.limit then []
    else if q.tags ⊆ node.2.tags then
      ⟨node.1, node.2.tags, node.2.evidence⟩ :: listManifests q (n + 1) nodes
    else listManifests q n nodes

/-- `queryComputeManifests`, with the nodes in the order in which the map is read. -/
def queryComputeManifests (q : ComputeManifestRequest) (nodes : List (Σ _ : UUID, RoutingInfo)) :
    List ComputeManifest :=
  if q.limit ≤ 0 then [] else listManifests q 0 nodes

/-! ## Candidates -/

/-- `api.ComputeCandidate`. -/
structure ComputeCandidate where
  id : UUID
  encapsulatedKey : Bytes
  deriving DecidableEq

/-- `proto.Marshal` and `proto.Unmarshal` of a routing info. -/
structure InfoCodec where
  marshal : Pb.ComputeRequestInfo → Except Err Bytes
  unmarshal : Bytes → Except Err Pb.ComputeRequestInfo
  unmarshal_marshal : ∀ m b, marshal m = .ok b → unmarshal b = .ok m

section
variable (w : Wire)

def ComputeCandidate.marshalProto (c : ComputeCandidate) : Pb.ComputeCandidate :=
  ⟨w.uuidString c.id, c.encapsulatedKey⟩

def ComputeCandidate.unmarshalProto (pbc : Pb.ComputeCandidate) : Except Err ComputeCandidate := do
  let id ← (w.parseV7 pbc.id).mapError (.errorf "failed to parse uuid: %w" [])
  if pbc.encapsulatedKey.length = 0 then .error (.new "missing encapsulated key" [])
  else return ⟨id, pbc.encapsulatedKey⟩

/-- The loop over the candidates, from the `i`-th on. -/
def unmarshalCandidatesFrom (i : Nat) :
    List Pb.ComputeCandidate → Except Err (List ComputeCandidate)
  | [] => .ok []
  | pbc :: pbcs => do
    let candidate ← (ComputeCandidate.unmarshalProto w pbc).mapError
      (.errorf "failed to unmarshal candidate protobuf %d: %w" [.int i])
    let rest ← unmarshalCandidatesFrom (i + 1) pbcs
    return candidate :: rest

/-- `ComputeRequestInfo.UnmarshalProto`: the candidates. -/
def unmarshalCandidates (pbi : Pb.ComputeRequestInfo) : Except Err (List ComputeCandidate) :=
  if pbi.candidates.length = 0 then .error (.new "need at least one candidate, got zero" [])
  else unmarshalCandidatesFrom w 0 pbi.candidates

/-- `ComputeRequestInfo.MarshalText`. -/
def marshalInfoText (codec : InfoCodec) (candidates : List ComputeCandidate) : Except Err Bytes :=
  (codec.marshal ⟨candidates.map (ComputeCandidate.marshalProto w)⟩).map Base64.encodeToString

/-- `ComputeRequestInfo.UnmarshalText`. -/
def unmarshalInfoText (codec : InfoCodec) (p : Bytes) : Except Err (List ComputeCandidate) := do
  let b ← Base64.decodeString p
  let pbi ← codec.unmarshal b
  unmarshalCandidates w pbi

end

/-! ## The choice of a node -/

/-- `queryRoutingInfoForCandidates`. -/
def queryRoutingInfoForCandidates (nodes : RoutingSet) (candidates : List ComputeCandidate) :
    List (UUID × RoutingInfo) :=
  candidates.filterMap fun candidate => (nodes.lookup candidate.id).map (candidate.id, ·)

def noAvailableNodes (n : Nat) : Err :=
  .new "did not find any available nodes after checking %d candidates" [.int n]

/-- `PickNodeFromCandidates`: the first candidate with the id that is drawn, and the URL of its
node. `draw i` is `rand.Int(rand.Reader, i + 1)`. -/
def pickNodeFromCandidates (nodes : RoutingSet) (draw : (i : Nat) → Except Err (Fin (i + 1)))
    (candidates : List ComputeCandidate) : Except Err (ComputeCandidate × Bytes) :=
  match queryRoutingInfoForCandidates nodes candidates with
  | [] => .error (noAvailableNodes candidates.length)
  | info :: infos =>
    match draw infos.length with
    | .error e => .error (.errorf "failed to pick random number: %w" [] e)
    | .ok i =>
      let picked := (info :: infos).get i
      match candidates.find? fun candidate => candidate.id = picked.1 with
      | some candidate => .ok (candidate, picked.2.url)
      | none => .error (noAvailableNodes candidates.length)

/-! ## Requests and responses -/

inductive HeaderName where
  | contentType
  /-- `X-Routing-Info` -/
  | routingInfo
  /-- `X-Node-ID` -/
  | nodeID
  /-- `X-Credit` -/
  | credit
  /-- `X-Encapsulated-Key` -/
  | encapsulatedKey
  /-- `X-Credit-Amount` -/
  | creditAmount
  /-- `X-Confsec-Ping` -/
  | confsecPing
  | other (name : Bytes)
  deriving DecidableEq

/-- `http.Header`, with one value for a name. -/
abbrev Header := AList fun _ : HeaderName => Bytes

namespace Header

def get (h : Header) (name : HeaderName) : Bytes := (h.lookup name).getD []

def set (h : Header) (name : HeaderName) (v : Bytes) : Header := h.insert name v

def del (h : Header) (name : HeaderName) : Header := h.erase name

end Header

/-- An error response; the message is the text of an error. -/
structure HttpError where
  code : Nat
  message : Err
  deriving DecidableEq

/-- `modifyResponseInput`, without the transaction. -/
structure Routed where
  credit : Anonpay.BlindedCredit
  creditAmount : Int
  nodeURL : Bytes
  candidate : ComputeCandidate

section
variable (w : Wire) (codec : InfoCodec)
  (unmarshalCredit : Bytes → Except Err Anonpay.BlindedCredit)

/-- The handler of `newProxyHandler` up to the transaction. -/
def routeRequest (nodes : RoutingSet) (draw : (i : Nat) → Except Err (Fin (i + 1)))
    (h : Header) : Except HttpError Routed :=
  match unmarshalInfoText w codec (h.get .routingInfo) with
  | .error _ => .error ⟨400, .new "invalid routing info in X-Routing-Info header" []⟩
  | .ok candidates =>
    match unmarshalCredit (h.get .credit) with
    | .error _ => .error ⟨400, .new "invalid credit in X-Credit header" []⟩
    | .ok credit =>
      match credit.value.amount with
      | .error _ => .error ⟨400, .new "invalid credit value" []⟩
      | .ok amount =>
        match pickNodeFromCandidates nodes draw candidates with
        | .error _ => .error ⟨404, .new "all candidate nodes unavailable" []⟩
        | .ok (candidate, nodeURL) => .ok ⟨credit, amount, nodeURL, candidate⟩

end

/-- `Rewrite`: the header of the request to the node. -/
def rewrite (r : Routed) (h : Header) : Header :=
  (((h.del .routingInfo).del .credit).set .encapsulatedKey
    (Base64.encodeToString r.candidate.encapsulatedKey)).set .creditAmount
      (Decimal.formatInt r.creditAmount)

/-- `ModifyResponse`: the header of the response to the client. -/
def modifyResponse (w : Wire) (r : Routed) (h : Header) : Header :=
  h.set .nodeID (w.uuidString r.candidate.id)

/-! ## The node -/

def mediaTypeRequest : Bytes := utf8 "application/confsec-req".toList

def mediaTypeRequestChunked : Bytes := utf8 "application/confsec-chunked-req".toList

def isRequestMediaType (v : Bytes) : Bool := v = mediaTypeRequest ∨ v = mediaTypeRequestChunked

/-- `RequestParams` of the compute node. -/
structure RequestParams where
  mediaType : Bytes
  encapsulatedKey : Bytes
  creditAmount : Int
  deriving DecidableEq

/-- `RouterComService.requestParams`. -/
def requestParams (h : Header) : Except Err RequestParams :=
  let mediaType := h.get .contentType
  if isRequestMediaType mediaType = false then .error (.new "invalid media type" [])
  else
    let b64EncapKey := h.get .encapsulatedKey
    if b64EncapKey.length = 0 ∨ b64EncapKey.length > 512 then
      .error (.new "invalid encapsulated key" [])
    else
      match Base64.decodeString b64EncapKey with
      | .error _ => .error (.new "invalid encapsulated key" [])
      | .ok encapKey =>
        match Decimal.parseInt (h.get .creditAmount) with
        | .error _ => .error (.new "invalid credit amount" [])
        | .ok creditAmount =>
          if creditAmount ≤ 0 then .error (.new "credit amount must be greater than 0" [])
          else .ok ⟨mediaType, encapKey, creditAmount⟩

end Router
