import OpenPCC.Router.State

/-!
# Routers that gossip

Routers receive events of the nodes, perform health checks and send each other their whole states.
A message is a copy of the sender's state; it may arrive late, more than once or never. `Cluster`
has the state of each router and all messages that were sent. With a state goes the set of the
events behind it, received directly or through a merged state (`Replica.seen`).

`HealthPair` are two routers that merge their health states of one node.
-/

namespace Router

open Go

/-- A state and the events that were merged into it. -/
structure Replica where
  state : RouterState := {}
  seen : Finset NodeEvent := ∅
  deriving DecidableEq

namespace Replica

def mergeNodeEvent (r : Replica) (e : NodeEvent) : Replica :=
  ⟨(r.state.mergeNodeEvent e).1, insert e r.seen⟩

def mergeHealthcheck (r : Replica) (hc : Check) : Replica :=
  { r with state := (r.state.mergeHealthcheck hc).1 }

def mergeState (r other : Replica) : Replica :=
  ⟨(r.state.mergeState other.state).1, r.seen ∪ other.seen⟩

/-- The events of one node. -/
def eventsOf (r : Replica) (id : UUID) : Finset NodeEvent := r.seen.filter (·.nodeID = id)

/-- The two know the same agents, in the same states. -/
def SameAgents (r s : Replica) : Prop :=
  ∀ id, r.state.agents.lookup id = s.state.agents.lookup id

/-- The states that can be built from the events `events` and any health checks. -/
inductive Built (events : Finset NodeEvent) : Replica → Prop where
  | init : Built events {}
  | event {r : Replica} {e : NodeEvent} (hr : Built events r) (he : e ∈ events) :
    Built events (r.mergeNodeEvent e)
  | healthcheck {r : Replica} (hr : Built events r) (hc : Check) :
    Built events (r.mergeHealthcheck hc)
  | state {r other : Replica} (hr : Built events r) (hother : Built events other) :
    Built events (r.mergeState other)

end Replica

/-- The routers `ι`, and the messages that were sent. -/
structure Cluster (ι : Type) where
  routers : ι → Replica := fun _ => {}
  sent : List Replica := []

namespace Cluster

variable {ι : Type} [DecidableEq ι]

/-- The router `i` goes over to `r`. -/
def set (c : Cluster ι) (i : ι) (r : Replica) : Cluster ι :=
  { c with routers := Function.update c.routers i r }

def send (c : Cluster ι) (i : ι) : Cluster ι := { c with sent := c.routers i :: c.sent }

inductive Step (events : Finset NodeEvent) (c : Cluster ι) : Cluster ι → Prop where
  | event (i : ι) {e : NodeEvent} (he : e ∈ events) :
    Step events c (c.set i ((c.routers i).mergeNodeEvent e))
  | healthcheck (i : ι) (hc : Check) :
    Step events c (c.set i ((c.routers i).mergeHealthcheck hc))
  | send (i : ι) : Step events c (c.send i)
  | receive (i : ι) {other : Replica} (hsent : other ∈ c.sent) :
    Step events c (c.set i ((c.routers i).mergeState other))

/-- The clusters that a run leads to from empty states. -/
def Reachable (events : Finset NodeEvent) : Cluster ι → Prop :=
  Relation.ReflTransGen (Step events) {}

end Cluster

/-- The events are such as the agents of the nodes send them: an index is given once, every event
has a timestamp, the routing info of a node does not change and no heartbeat follows a
shutdown. -/
structure Consistent (events : Finset NodeEvent) : Prop where
  index : ∀ e ∈ events, ∀ e' ∈ events, e.nodeID = e'.nodeID → e.eventIndex = e'.eventIndex → e = e'
  timestamp : ∀ e ∈ events, e.timestamp ≠ 0
  routingInfo : ∀ e ∈ events, ∀ e' ∈ events, e.nodeID = e'.nodeID → e.routingInfo.isSome →
    e'.routingInfo.isSome → e.routingInfo = e'.routingInfo
  shutdown : ∀ e ∈ events, ∀ e' ∈ events, e.nodeID = e'.nodeID → e.isShutdownEvent →
    ¬ e'.isShutdownEvent → ¬ e.eventIndex < e'.eventIndex

/-- The health states that two routers have of a node. -/
structure HealthPair where
  left : NodeHealth
  right : NodeHealth
  deriving DecidableEq

/-- The router that merges the other's state. -/
inductive Side where
  | left
  | right
  deriving DecidableEq

/-- How the two come to merge each other's state: one after the other, or with messages that
cross. -/
inductive Round where
  | leftFirst
  | rightFirst
  | crossing
  deriving DecidableEq

namespace HealthPair

/-- The new states, and the answer of `MergeState`. -/
def exchange (p : HealthPair) : Side → HealthPair × Bool
  | .left => ({ p with left := (p.left.mergeState p.right).1 }, (p.left.mergeState p.right).2)
  | .right => ({ p with right := (p.right.mergeState p.left).1 }, (p.right.mergeState p.left).2)

/-- Each has merged the other's state once. -/
def bothWays (p : HealthPair) : Round → HealthPair
  | .leftFirst => ((p.exchange .left).1.exchange .right).1
  | .rightFirst => ((p.exchange .right).1.exchange .left).1
  | .crossing => ⟨(p.exchange .left).1.left, (p.exchange .right).1.right⟩

/-- The states after a sequence of merges, and whether any of them reported a change. -/
def exchanges (p : HealthPair) : List Side → HealthPair × Bool
  | [] => (p, false)
  | side :: sides =>
    let (q, changed) := (p.exchange side).1.exchanges sides
    (q, (p.exchange side).2 || changed)

end HealthPair

end Router
