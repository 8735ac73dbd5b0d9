import OpenPCC.Lib.Merge
import OpenPCC.Attest.Evidence
import OpenPCC.Router.Health

/-!
# The state of a router

What a router knows about the nodes: the state of the agent that runs on a node, from the events
it sends, and the node's health, from health checks. Either may be known without the other. A
merge returns the new state and a summary of what changed (`RouterChange`). The agents and the
health of the nodes are merged in the same way, entry by entry (`Table.upsert`,
`Table.mergeWith`).
-/

namespace Router

open Go

/-- `agent.RoutingInfo`; URLs are given by their `String()`. -/
structure RoutingInfo where
  url : Bytes
  healthcheckURL : Bytes
  tags : Finset Bytes
  evidence : Attest.SignedEvidenceList
  deriving DecidableEq

structure Heartbeat where
  routingInfoURL : Option Bytes := none
  routingInfo : Option RoutingInfo
  deriving DecidableEq

structure NodeEvent where
  eventIndex : Int
  nodeID : UUID
  timestamp : Time
  /-- nil for shutdown events -/
  heartbeat : Option Heartbeat
  deriving DecidableEq

def NodeEvent.isShutdownEvent (e : NodeEvent) : Bool := e.heartbeat.isNone

/-- `e.Heartbeat.RoutingInfo`, nil without a heartbeat. -/
def NodeEvent.routingInfo (e : NodeEvent) : Option RoutingInfo :=
  e.heartbeat.bind (·.routingInfo)

/-- `state.Agent`. -/
structure Agent where
  lastEventIndex : Int := 0
  lastEventTimestamp : Time := 0
  routingInfo : Option RoutingInfo := none
  shutdownAt : Option Time := none
  deriving DecidableEq

def Agent.canHealthcheck (a : Agent) : Bool := a.routingInfo.isSome ∧ a.shutdownAt.isNone

def Agent.isNewAgent (a : Agent) : Bool := a.lastEventTimestamp = 0

def Agent.mergeNodeEvent (a : Agent) (e : NodeEvent) : Agent × Bool :=
  if a.isNewAgent ∨ e.eventIndex > a.lastEventIndex then
    ({ lastEventIndex := e.eventIndex
       lastEventTimestamp := e.timestamp
       routingInfo := a.routingInfo <|> e.routingInfo
       shutdownAt := if e.isShutdownEvent then some e.timestamp else a.shutdownAt }, true)
  else if a.routingInfo.isNone ∧ e.routingInfo.isSome then
    ({ a with routingInfo := e.routingInfo }, true)
  else (a, false)

def Agent.mergeState (a other : Agent) : Agent × Bool :=
  let newer := a.lastEventIndex < other.lastEventIndex
  let informs := a.routingInfo.isNone ∧ other.routingInfo.isSome
  ({ lastEventIndex := if newer then other.lastEventIndex else a.lastEventIndex
     lastEventTimestamp := if newer then other.lastEventTimestamp else a.lastEventTimestamp
     routingInfo := if informs then other.routingInfo else a.routingInfo
     shutdownAt := if newer then other.shutdownAt <|> a.shutdownAt else a.shutdownAt },
    newer ∨ informs)

/-- `state.Router`. -/
structure RouterState where
  agents : AList fun _ : UUID => Agent := ∅
  health : AList fun _ : UUID => NodeHealth := ∅
  deriving DecidableEq

/-- The ids of the nodes a merge made known or changed. -/
structure RouterChange where
  newAgents : Finset UUID := ∅
  updatedAgents : Finset UUID := ∅
  newHealth : Finset UUID := ∅
  updatedHealth : Finset UUID := ∅
  deriving DecidableEq

namespace RouterChange

variable (r : RouterChange)

def changes : Nat :=
  r.newAgents.card + r.updatedAgents.card + r.newHealth.card + r.updatedHealth.card

def changedState : Bool := r.changes > 0

def isNewNode (id : UUID) : Bool :=
  if r.newAgents.card > 0 then id ∈ r.newAgents
  else if r.newHealth.card > 0 then id ∈ r.newHealth
  else false

def nodeIDs : Finset UUID :=
  r.newAgents ∪ r.updatedAgents ∪ r.newHealth ∪ r.updatedHealth

end RouterChange

namespace RouterState

def mergeNodeEvent (r : RouterState) (e : NodeEvent) : RouterState × RouterChange :=
  let agents := Table.upsert r.agents e.nodeID {} (·.mergeNodeEvent e)
  ({ r with agents := agents.table },
    { newAgents := agents.new, updatedAgents := agents.updated })

def mergeHealthcheck (r : RouterState) (hc : Check) : RouterState × RouterChange :=
  let health := Table.upsert r.health hc.nodeID ⟨[]⟩ (·.mergeHealthcheck hc)
  ({ r with health := health.table },
    { newHealth := health.new, updatedHealth := health.updated })

/-- The two loops of `MergeState` do not depend on each other. -/
def mergeState (r other : RouterState) : RouterState × RouterChange :=
  let agents := Table.mergeWith Agent.mergeState r.agents other.agents
  let health := Table.mergeWith NodeHealth.mergeState r.health other.health
  (⟨agents.table, health.table⟩, ⟨agents.new, agents.updated, health.new, health.updated⟩)

/-- `QueryHealthcheckTargets`: the URL under which the health of a node can be checked. -/
def healthcheckTarget (r : RouterState) (id : UUID) : Option Bytes :=
  match r.agents.lookup id with
  | none => none
  | some a => if a.canHealthcheck then a.routingInfo.map (·.healthcheckURL) else none

/-- The nodes a state knows about. -/
def known (r : RouterState) : Finset UUID := Table.keySet r.agents ∪ Table.keySet r.health

end RouterState

end Router
