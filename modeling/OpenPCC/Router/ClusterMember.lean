import OpenPCC.Router.AgentClient
import OpenPCC.Router.Ring

/-!
# Routers as members of a cluster (`router/cluster_member.go`, `app/gossip/delegate.go`)

The membership layer notifies a member of the nodes that join and leave, by name and metadata. The
delegate drops names that are not ids of version 7 and the member's own name; the member keeps the
routers of its own kind in its ring. What a member receives itself, node events and its own health
checks, it adds to its router and broadcasts; what it hears from others it only adds.

In a round of health checks a member checks those of the nodes it knows that its ring gives to it.
-/

namespace Router

open Go

namespace Pb

/-- `RouterNodeMetaType`; the enumeration is open. -/
inductive RouterNodeMetaType where
  | routerV1
  | routerV2
  | other (n : Int32)
  deriving DecidableEq

structure RouterNodeMeta where
  type : Option RouterNodeMetaType := none
  deriving DecidableEq

/-- The payload of a message, of which there is at most one. -/
inductive RouterNodeMessage where
  | nodeEvent (pbe : NodeEvent)
  | healthcheck (pbc : Check)
  | empty

end Pb

/-! ## Membership -/

/-- What a notification says of a node; the metadata may not be readable. -/
structure MemberNode where
  name : Bytes
  metadata : Option Pb.RouterNodeMeta := none
  deriving DecidableEq

inductive Notification where
  | join (n : MemberNode)
  | leave (n : MemberNode)
  deriving DecidableEq

structure ClusterMember where
  id : UUID
  routerRing : Ring

def newClusterMember (id : UUID) : ClusterMember := ⟨id, newRing.addRouter id⟩

namespace ClusterMember

variable (m : ClusterMember)

def addPeer (id : UUID) : ClusterMember :=
  if m.id = id then m else { m with routerRing := m.routerRing.addRouter id }

def removePeer (id : UUID) : ClusterMember :=
  if m.id = id then m else { m with routerRing := m.routerRing.removeRouter id }

def handleNodeJoin (id : UUID) (metadata : Option Pb.RouterNodeMeta) : ClusterMember :=
  match metadata with
  | some ⟨some .routerV2⟩ => m.addPeer id
  | _ => m

def handleNodeLeave (id : UUID) : ClusterMember := m.removePeer id

/-- `NotifyJoin` and `NotifyLeave`. -/
def notify (w : Wire) : Notification → ClusterMember
  | .join n =>
    match w.parseV7 n.name with
    | .error _ => m
    | .ok id => if id = m.id then m else m.handleNodeJoin id n.metadata
  | .leave n =>
    match w.parseV7 n.name with
    | .error _ => m
    | .ok id => if id = m.id then m else m.handleNodeLeave id

end ClusterMember

/-- The member with an id after some notifications. -/
def memberAfter (w : Wire) (id : UUID) (notes : List Notification) : ClusterMember :=
  notes.foldl (fun m n => m.notify w n) (newClusterMember id)

namespace Notification

/-- A router of the same kind joins. -/
def Joins (w : Wire) (id : UUID) : Notification → Prop
  | .join n => w.parseV7 n.name = .ok id ∧ n.metadata = some ⟨some .routerV2⟩
  | .leave _ => False

def Leaves (w : Wire) (id : UUID) : Notification → Prop
  | .join _ => False
  | .leave n => w.parseV7 n.name = .ok id

end Notification

/-- The router has joined and not left since. -/
def Present (w : Wire) (notes : List Notification) (id : UUID) : Prop :=
  ∃ before n after, notes = before ++ n :: after ∧ n.Joins w id ∧ ∀ n' ∈ after, ¬ n'.Leaves w id

/-! ## Messages -/

/-- What is added to the wrapped router. -/
inductive RouterInput where
  | nodeEvent (ev : NodeEvent)
  | healthcheck (check : Check)
  deriving DecidableEq

/-- The message that `AddNodeEvent` and `AddHealthcheck` broadcast. -/
def RouterInput.message (w : Wire) (order : TagOrder) : RouterInput → Pb.RouterNodeMessage
  | .nodeEvent ev => .nodeEvent (ev.marshalProto w order)
  | .healthcheck check => .healthcheck (check.marshalProto w)

/-- `HandleMessage`: what is added, if the message can be read. -/
def handleMessage (w : Wire) : Pb.RouterNodeMessage → Except Err (Option RouterInput)
  | .nodeEvent pbe => do
    let ev ← NodeEvent.unmarshalProto w pbe
    return some (.nodeEvent ev)
  | .healthcheck pbc => do
    let check ← Check.unmarshalProto w pbc
    return some (.healthcheck check)
  | .empty => .ok none

/-- What a member adds by itself: an event that its handler has read, or its check of a node that it
knew at some time. -/
inductive Received (w : Wire) : RouterInput → Prop where
  | nodeEvent {pbe : Pb.NodeEvent} {ev : NodeEvent}
    (h : NodeEvent.unmarshalProto w pbe = .ok ev) : Received w (.nodeEvent ev)
  | healthcheck {s : RouterState} {id : UUID} {url : Bytes} (hs : RouterState.Reachable w s)
    (hurl : s.healthcheckTarget id = some url) (attempts : List Attempt) :
    Received w (.healthcheck (checkHealth id url attempts))

/-! ## Rounds of health checks -/

/-- The target of one agent. -/
def healthcheckEntry (e : Sigma fun _ : UUID => Agent) : Option (Sigma fun _ : UUID => Bytes) :=
  if e.2.canHealthcheck then e.2.routingInfo.map fun info => ⟨e.1, info.healthcheckURL⟩ else none

theorem nodupKeys_healthcheckEntry {l : List (Sigma fun _ : UUID => Agent)} (h : l.NodupKeys) :
    (l.filterMap healthcheckEntry).NodupKeys := by
  have hkey : ∀ {e : Sigma fun _ : UUID => Agent} {t}, healthcheckEntry e = some t →
      t.1 = e.1 := by
    intro e t ht
    unfold healthcheckEntry at ht
    split at ht
    · obtain ⟨info, -, rfl⟩ := Option.map_eq_some_iff.1 ht
      rfl
    · cases ht
  rw [List.nodupKeys_iff_pairwise] at h ⊢
  refine h.filterMap healthcheckEntry fun e e' hne t ht t' ht' => ?_
  rw [hkey ht, hkey ht']
  exact hne

/-- The map of `Router.QueryHealthcheckTargets`. -/
def RouterState.healthcheckTargets (r : RouterState) : Targets where
  entries := r.agents.entries.filterMap healthcheckEntry
  nodupKeys := nodupKeys_healthcheckEntry r.agents.nodupKeys

namespace ClusterMember

variable (m : ClusterMember)

/-- `QueryHealthcheckTargets`, with the order in which the ring has the nodes. -/
def queryHealthcheckTargets (s : RouterState) (nodeIDs : List UUID) : Targets :=
  m.routerRing.queryHealthcheckURLs m.id s.healthcheckTargets nodeIDs

/-- `runHealthChecks`: the checks that are added, with what comes of the requests. -/
def runHealthChecks (s : RouterState) (nodeIDs : List UUID) (attempts : UUID → List Attempt) :
    List Check :=
  (m.queryHealthcheckTargets s nodeIDs).entries.map fun t => checkHealth t.1 t.2 (attempts t.1)

end ClusterMember

end Router
