import OpenPCC.Lib.Codec
import OpenPCC.Router.State

/-!
# The messages of the routers

Node events, health checks and whole states are sent as protobuf messages. A message type (`Pb`)
has an `Option` for a field whose presence is tested; a field that is only read through its getter
has the default value of the getter when it is not set, and so has every field of a nil message.
Maps of messages can hold nil.

The encoders check nothing; the decoders reject ids of another version, relative URLs, routing
infos without tags, negative event indices, histories of several nodes or out of order.
`Wire` are the text forms of ids and URLs, from other packages. The order in which `Slice` lists a
set of tags is open (`TagOrder`).
-/

namespace Router

open Go Codec

/-! ## Messages -/

namespace Pb

inductive EvidenceType where
  | unspecified
  | tpmCertifyRekCreation
  | gceAkCertificate
  | tpmtPublic
  | sevsnpReport
  | tdxReport
  | nvidiaETA
  | gceAkIntermediateCertificate
  | nvidiaIntermediateCertificate
  | azureAkCertificate
  | eventLog
  | tpmQuote
  | imageSigstoreBundle
  | tdxCollateral
  | nvidiaSwitchETA
  | nvidiaSwitchIntermediateCertificate
  /-- the enumeration is open -/
  | other (n : Int32)

structure SignedEvidencePiece where
  type : EvidenceType := .unspecified
  data : Bytes := []
  signature : Bytes := []

structure RoutingInfo where
  url : Bytes := []
  healthcheckUrl : Bytes := []
  tags : List Bytes := []
  evidence : List SignedEvidencePiece := []

structure Heartbeat where
  routingInfoUrl : Option Bytes := none
  routingInfo : Option RoutingInfo := none

structure NodeEvent where
  eventIndex : Int := 0
  nodeId : Bytes := []
  timestamp : Option Time := none
  heartbeat : Option Heartbeat := none
  hasShutdown : Bool := false

structure Check where
  nodeId : Bytes := []
  url : Bytes := []
  retries : Int32 := 0
  timestamp : Option Time := none
  latencyNs : Int := 0
  httpStatusCode : Int32 := 0
  errorMessage : Bytes := []

structure History where
  checks : List Check := []

structure NodeHealthState where
  history : Option History := none

structure AgentState where
  lastEventIndex : Option Int := none
  lastEventTimestamp : Option Time := none
  routingInfo : Option RoutingInfo := none
  shutdownAt : Option Time := none

structure RouterState where
  agents : AList fun _ : Bytes => Option AgentState := ∅
  nodeHealth : AList fun _ : Bytes => Option NodeHealthState := ∅

/-- The two messages have the same entries. -/
structure RouterState.Same (r s : RouterState) : Prop where
  agents : ∀ key, r.agents.lookup key = s.agents.lookup key
  nodeHealth : ∀ key, r.nodeHealth.lookup key = s.nodeHealth.lookup key

end Pb

/-! ## Texts -/

/-- A parsed URL: its scheme and its `String()`. -/
structure Url where
  scheme : Bytes
  string : Bytes
  deriving DecidableEq

/-- The packages for ids and URLs: the text of an id parses as the id, and the text of a parsed
absolute URL parses as that URL. -/
structure Wire where
  uuidString : UUID → Bytes
  uuidParse : Bytes → Except Err UUID
  uuidParse_uuidString : ∀ id, uuidParse (uuidString id) = .ok id
  /-- `Version()` -/
  version : UUID → UInt8
  urlParse : Bytes → Except Err Url
  urlParse_string : ∀ s u, urlParse s = .ok u → u.scheme ≠ [] → urlParse u.string = .ok u

/-- The order in which the tags of a set are listed. -/
structure TagOrder where
  slice : Finset Bytes → List Bytes
  nodup : ∀ tags, (slice tags).Nodup
  toFinset : ∀ tags, (slice tags).toFinset = tags

namespace Wire

variable (w : Wire)

theorem uuidString_injective : Function.Injective w.uuidString := by
  intro id id' h
  have hparse := congrArg w.uuidParse h
  rw [w.uuidParse_uuidString, w.uuidParse_uuidString] at hparse
  exact Except.ok.inj hparse

/-- The keys of the maps. -/
def idText : UUID ↪ Bytes := ⟨w.uuidString, w.uuidString_injective⟩

/-- `uuidv7.Parse`. -/
def parseV7 (s : Bytes) : Except Err UUID := do
  let uid ← w.uuidParse s
  if w.version uid ≠ 7 then
    .error (.new "got uuid of version %d, want version %d" [.int (w.version uid).toNat, .int 7])
  else return uid

/-- `url.Parse`, with the check that the URL is absolute. -/
def parseAbsolute (parseErr absoluteErr : String) (s : Bytes) : Except Err Bytes := do
  let u ← (w.urlParse s).mapError (.errorf parseErr [])
  if u.scheme = [] then .error (.new absoluteErr []) else return u.string

end Wire

/-- `AsTime()`; nil is the start of the Unix epoch. -/
def asTime (t : Option Time) : Time := t.getD (62135596800 * 10 ^ 9)

/-! ## Evidence -/

def marshalEvidenceType : Attest.EvidenceType → Pb.EvidenceType
  | .certifyRekCreation => .tpmCertifyRekCreation
  | .gceAkCertificate => .gceAkCertificate
  | .tpmtPublic => .tpmtPublic
  | .sevSnpReport => .sevsnpReport
  | .tdxReport => .tdxReport
  | .nvidiaETA => .nvidiaETA
  | .gceAkIntermediateCertificate => .gceAkIntermediateCertificate
  | .nvidiaCCIntermediateCertificate => .nvidiaIntermediateCertificate
  | .azureAkCertificate => .azureAkCertificate
  | .eventLog => .eventLog
  | .tpmQuote => .tpmQuote
  | .imageSigstoreBundle => .imageSigstoreBundle
  | .tdxCollateral => .tdxCollateral
  | .nvidiaSwitchETA => .nvidiaSwitchETA
  | .nvidiaSwitchIntermediateCertificate => .nvidiaSwitchIntermediateCertificate
  | .unspecified => .unspecified

def unmarshalEvidenceType : Pb.EvidenceType → Except Err Attest.EvidenceType
  | .tpmCertifyRekCreation => .ok .certifyRekCreation
  | .gceAkCertificate => .ok .gceAkCertificate
  | .tpmtPublic => .ok .tpmtPublic
  | .sevsnpReport => .ok .sevSnpReport
  | .tdxReport => .ok .tdxReport
  | .nvidiaETA => .ok .nvidiaETA
  | .gceAkIntermediateCertificate => .ok .gceAkIntermediateCertificate
  | .nvidiaIntermediateCertificate => .ok .nvidiaCCIntermediateCertificate
  | .azureAkCertificate => .ok .azureAkCertificate
  | .eventLog => .ok .eventLog
  | .tpmQuote => .ok .tpmQuote
  | .imageSigstoreBundle => .ok .imageSigstoreBundle
  | .tdxCollateral => .ok .tdxCollateral
  | .nvidiaSwitchETA => .ok .nvidiaSwitchETA
  | .nvidiaSwitchIntermediateCertificate => .ok .nvidiaSwitchIntermediateCertificate
  | .unspecified | .other _ => .ok .unspecified

def marshalEvidencePiece (se : Attest.SignedEvidencePiece) : Pb.SignedEvidencePiece :=
  ⟨marshalEvidenceType se.type, se.data, se.signature⟩

def unmarshalEvidencePiece (pbsep : Pb.SignedEvidencePiece) :
    Except Err Attest.SignedEvidencePiece := do
  let t ← (unmarshalEvidenceType pbsep.type).mapError
    (.errorf "failed to unmarshal evidence type: %w" [])
  return ⟨t, pbsep.data, pbsep.signature⟩

def marshalEvidence (s : Attest.SignedEvidenceList) : List Pb.SignedEvidencePiece :=
  s.map marshalEvidencePiece

/-- The loop over the items, from the `i`-th on. -/
def unmarshalEvidenceFrom (i : Nat) :
    List Pb.SignedEvidencePiece → Except Err Attest.SignedEvidenceList
  | [] => .ok []
  | item :: items => do
    let sep ← (unmarshalEvidencePiece item).mapError
      (.errorf "failed to unmarshal signed evidence piece %d: %w" [.int i])
    let rest ← unmarshalEvidenceFrom (i + 1) items
    return sep :: rest

def unmarshalEvidence (items : List Pb.SignedEvidencePiece) :
    Except Err Attest.SignedEvidenceList :=
  unmarshalEvidenceFrom 0 items

/-! ## Routing info and events -/

def maxTagLength : Nat := 512

/-- `tags.FromSlice`. -/
def tagsFromSlice : List Bytes → Except Err (Finset Bytes)
  | [] => .ok ∅
  | tag :: rest =>
    if tag.length > maxTagLength then
      .error (.new "tag over max length, got %d, want %d" [.int tag.length, .int maxTagLength])
    else do
      let out ← tagsFromSlice rest
      return insert tag out

section

variable (w : Wire)

def RoutingInfo.marshalProto (order : TagOrder) (r : RoutingInfo) : Pb.RoutingInfo :=
  { url := r.url
    healthcheckUrl := r.healthcheckURL
    tags := order.slice r.tags
    evidence := marshalEvidence r.evidence }

def RoutingInfo.unmarshalProto (pbr : Pb.RoutingInfo) : Except Err RoutingInfo := do
  let nodeURL ← w.parseAbsolute "failed to parse URL: %w" "requires absolute URL" pbr.url
  let healthURL ← w.parseAbsolute "failed to parse healthcheck URL: %w"
    "requires absolute healthcheck URL" pbr.healthcheckUrl
  let tagslist ← (tagsFromSlice pbr.tags).mapError (.errorf "invalid tags: %w" [])
  if tagslist.card = 0 then .error (.new "requires at least one tag, got none" [])
  else do
    let evidence ← (unmarshalEvidence pbr.evidence).mapError
      (.errorf "failed to unmarshal signed evidence: %w" [])
    return ⟨nodeURL, healthURL, tagslist, evidence⟩

def Heartbeat.unmarshalProto (pbh : Pb.Heartbeat) : Except Err Heartbeat :=
  match pbh.routingInfoUrl, pbh.routingInfo with
  | none, none => .error (.new "heartbeat without url or info" [])
  | some url, _ => do
    let routingInfoURL ← w.parseAbsolute "failed to parse URL: %w" "requires absolute URL" url
    return ⟨some routingInfoURL, none⟩
  | none, some info => do
    let routingInfo ← RoutingInfo.unmarshalProto w info
    return ⟨none, some routingInfo⟩

/-- The heartbeat of an event, nil for a shutdown. -/
def NodeEvent.unmarshalData (pbe : Pb.NodeEvent) : Except Err (Option Heartbeat) :=
  match pbe.heartbeat with
  | some pbh => do
    let heartbeat ← (Heartbeat.unmarshalProto w pbh).mapError
      (.errorf "failed to unmarshal registration event data: %w" [])
    return some heartbeat
  | none =>
    if pbe.hasShutdown then .ok none else .error (.new "event is missing event data" [])

def NodeEvent.unmarshalProto (pbe : Pb.NodeEvent) : Except Err NodeEvent :=
  if pbe.eventIndex < 0 then
    .error (.new "event index should be 0 or greater, got %d" [.int pbe.eventIndex])
  else if pbe.timestamp.isNone then .error (.new "missing timestamp" [])
  else do
    let id ← (w.parseV7 pbe.nodeId).mapError (.errorf "failed to parse uuid: %w" [])
    let heartbeat ← NodeEvent.unmarshalData w pbe
    return ⟨pbe.eventIndex, id, asTime pbe.timestamp, heartbeat⟩

/-! ## Health -/

/-- `safeInt32`, with the largest number in place of those it refuses. -/
def int32OrMax (v : Int) : Int32 :=
  if v < -2 ^ 31 ∨ v > 2 ^ 31 - 1 then Int32.ofInt (2 ^ 31 - 1) else Int32.ofInt v

def Check.marshalProto (c : Check) : Pb.Check where
  nodeId := w.uuidString c.nodeID
  url := c.url
  retries := int32OrMax c.retries
  timestamp := some c.timestamp
  latencyNs := c.latency
  httpStatusCode := int32OrMax c.httpStatusCode
  errorMessage := c.errorMessage

def Check.unmarshalProto (pbc : Pb.Check) : Except Err Check := do
  let id ← (w.parseV7 pbc.nodeId).mapError (.errorf "failed to parse node id: %w" [])
  let requestURL ← w.parseAbsolute "failed to parse URL: %w" "requires absolute URL" pbc.url
  return ⟨id, requestURL, pbc.retries.toInt, asTime pbc.timestamp, pbc.latencyNs,
    pbc.httpStatusCode.toInt, pbc.errorMessage⟩

def History.marshalProto (h : History) : Pb.History := ⟨h.map (Check.marshalProto w)⟩

/-- The checks of a history are for one node and in order: `c` after `prev`. -/
def Check.follows (c : Check) : Option Check → Except Err Unit
  | none => .ok ()
  | some prev =>
    if c.nodeID ≠ prev.nodeID then
      .error (.new "expected all healthchecks to be for the same node, got ids %s and %s"
        [.int c.nodeID.toNat, .int prev.nodeID.toNat])
    else if c.timestamp < prev.timestamp then
      .error (.new
        "expected history to be ordered from old to new, timestamp out of order: %s"
        [.int c.timestamp])
    else .ok ()

/-- The loop over the checks, from the `i`-th on; `prev` is the check before it. -/
def History.unmarshalFrom (i : Nat) (prev : Option Check) : List Pb.Check → Except Err History
  | [] => .ok []
  | check :: checks => do
    let c ← (Check.unmarshalProto w check).mapError
      (.errorf "failed to unmarshal healthcheck %d: %w" [.int i])
    c.follows prev
    let rest ← History.unmarshalFrom (i + 1) (some c) checks
    return c :: rest

def History.unmarshalProto (hpb : Pb.History) : Except Err History :=
  History.unmarshalFrom w 0 none hpb.checks

def NodeHealth.marshalProto (h : NodeHealth) : Pb.NodeHealthState :=
  ⟨some (History.marshalProto w h.history)⟩

def NodeHealth.unmarshalProto (pbnh : Pb.NodeHealthState) : Except Err NodeHealth :=
  match pbnh.history with
  | none => .error (.new "missing history" [])
  | some history => do
    let his ← (History.unmarshalProto w history).mapError
      (.errorf "failed to unmarshal history: %w" [])
    return ⟨his⟩

/-! ## States -/

def Agent.marshalProto (order : TagOrder) (a : Agent) : Pb.AgentState where
  lastEventIndex := some a.lastEventIndex
  lastEventTimestamp := some a.lastEventTimestamp
  routingInfo := a.routingInfo.map (RoutingInfo.marshalProto order)
  shutdownAt := a.shutdownAt

/-- The routing info of an agent, nil if the message has none. -/
def Agent.unmarshalInfo (pba : Pb.AgentState) : Except Err (Option RoutingInfo) :=
  match pba.routingInfo with
  | none => .ok none
  | some info => do
    let rInfo ← (RoutingInfo.unmarshalProto w info).mapError
      (.errorf "failed to unmarshal routing info: %w" [])
    return some rInfo

def Agent.unmarshalProto (pba : Pb.AgentState) : Except Err Agent :=
  match pba.lastEventIndex, pba.lastEventTimestamp with
  | some lastEvIndex, some lastEvTimestamp =>
    if lastEvIndex < 0 then
      .error (.new "last event index must be 0 or greater, got %d" [.int lastEvIndex])
    else do
      let rInfo ← Agent.unmarshalInfo w pba
      return ⟨lastEvIndex, lastEvTimestamp, rInfo, pba.shutdownAt⟩
  | _, _ => .error (.new "no event data" [])

/-- The texts of the errors of one of the two maps. -/
structure MapErrors where
  key : String
  nil : String
  value : String

/-- An entry of one of the two maps. -/
def unmarshalEntry {M V : Type} (errs : MapErrors) (unmarshal : M → Except Err V) (key : Bytes)
    (value : Option M) : Except Err (UUID × V) := do
  let id ← (w.parseV7 key).mapError (.errorf errs.key [])
  match value with
  | none => .error (.new errs.nil [.int id.toNat])
  | some m => do
    let v ← (unmarshal m).mapError (.errorf errs.value [.int id.toNat])
    return (id, v)

def unmarshalAgents : Bytes → Option Pb.AgentState → Except Err (UUID × Agent) :=
  unmarshalEntry w ⟨"failed to parse uuid v7 for agent: %w", "%s: nil agent",
    "%s: failed to unmarshal agent protobuf: %w"⟩ (Agent.unmarshalProto w)

def unmarshalNodeHealth : Bytes → Option Pb.NodeHealthState → Except Err (UUID × NodeHealth) :=
  unmarshalEntry w ⟨"failed to parse uuid v7 for node health: %w", "%s: nil node health",
    "%s: failed to unmarshal node health protobuf: %w"⟩ (NodeHealth.unmarshalProto w)

/-- `MarshalProto`; `order` lists the tags of an agent's routing info. -/
def RouterState.marshalProto (order : UUID → TagOrder) (r : RouterState) : Pb.RouterState where
  agents := encodeTable w.idText (fun id a => some (Agent.marshalProto (order id) a)) r.agents
  nodeHealth := encodeTable w.idText (fun _ h => some (NodeHealth.marshalProto w h)) r.health

def RouterState.unmarshalProto (pbr : Pb.RouterState) : Except Err RouterState := do
  let agents ← decodeTable (unmarshalAgents w) pbr.agents
  let nodeHealth ← decodeTable (unmarshalNodeHealth w) pbr.nodeHealth
  return ⟨agents, nodeHealth⟩

end

/-! ## Reachable states -/

/-- The two states have the same entries. -/
structure RouterState.Same (r s : RouterState) : Prop where
  agents : ∀ id, r.agents.lookup id = s.agents.lookup id
  health : ∀ id, r.health.lookup id = s.health.lookup id

/-- Checks with the same timestamp may have changed places: `sort.Slice` is not stable. -/
structure RouterState.Reorders (r s : RouterState) : Prop where
  agents : ∀ id, s.agents.lookup id = r.agents.lookup id
  health : ∀ id, Option.Rel (fun h h' => h'.history.Perm h.history ∧ h'.history.Ordered)
    (r.health.lookup id) (s.health.lookup id)

/-- The states that a router can have, if it merges what the decoders accept and its own health
checks. The target of a check may be from an earlier state. -/
inductive RouterState.Reachable (w : Wire) : RouterState → Prop where
  | init : Reachable w {}
  | event {s : RouterState} {pbe : Pb.NodeEvent} {e : NodeEvent} (hs : Reachable w s)
    (he : NodeEvent.unmarshalProto w pbe = .ok e) : Reachable w (s.mergeNodeEvent e).1
  | healthcheck {s : RouterState} {pbc : Pb.Check} {c : Check} (hs : Reachable w s)
    (hc : Check.unmarshalProto w pbc = .ok c) : Reachable w (s.mergeHealthcheck c).1
  | ownHealthcheck {s earlier : RouterState} {id : UUID} {url : Bytes} (hs : Reachable w s)
    (hearlier : Reachable w earlier) (hurl : earlier.healthcheckTarget id = some url)
    (attempts : List Attempt) : Reachable w (s.mergeHealthcheck (checkHealth id url attempts)).1
  | peer {s p : RouterState} {pbr : Pb.RouterState} (hs : Reachable w s)
    (hp : RouterState.unmarshalProto w pbr = .ok p) : Reachable w (s.mergeState p).1
  | reorder {s s' : RouterState} (hs : Reachable w s) (hreorder : s.Reorders s') : Reachable w s'

end Router
