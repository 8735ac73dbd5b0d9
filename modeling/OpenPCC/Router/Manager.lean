import OpenPCC.Router.State

/-!
# The manager of a router's state

The manager merges events, health checks and other routers' states into its own state, evaluates
the nodes that changed and keeps the routing set. A node is evaluated again in the background,
after a delay that the evaluator chooses; the delay pool holds the ids of the nodes to be
evaluated and hands them out in any order (`pending`). An evaluation without a next check evicts
the node.

The order in which the ids of a change are visited is open in the source (it ranges over a map),
and so is what the evaluator says at which moment; both are given with each operation (`Act`).
-/

namespace Router

open Go

/-- A `NodeEvaluator` at the moment of one evaluation, with its documented contract. The second
result is the delay after which the node is to be evaluated again. -/
structure NodeEvaluator where
  evaluate : Option Agent → Option NodeHealth → Option RoutingInfo × Option Int
  info_nil : ∀ a h, (evaluate a h).2 = none → (evaluate a h).1 = none
  evicts_absent : (evaluate none none).2 = none

/-- A call of `RoutingSet.Update`. -/
structure RoutingUpdate where
  adds : AList fun _ : UUID => RoutingInfo := ∅
  deletes : List UUID := []
  deriving DecidableEq

structure Manager where
  state : RouterState := {}
  knownNodeCount : Int := 0
  /-- the node ids in the delay pool -/
  pending : List UUID := []
  /-- the calls made to the routing set, the latest first -/
  updates : List RoutingUpdate := []
  deriving DecidableEq

namespace Manager

def evaluateNode (m : Manager) (ev : NodeEvaluator) (nodeID : UUID) (scheduleBgEval : Bool) :
    Manager × Option RoutingInfo :=
  let (info, nextCheck) := ev.evaluate (m.state.agents.lookup nodeID) (m.state.health.lookup nodeID)
  match nextCheck with
  | some _ =>
    ({ m with pending := if scheduleBgEval then nodeID :: m.pending else m.pending }, info)
  | none =>
    ({ m with
        state := ⟨m.state.agents.erase nodeID, m.state.health.erase nodeID⟩
        knownNodeCount := m.knownNodeCount - 1 }, info)

/-- One iteration of the loop over the ids of a change, with `rsAdds` and `rsDels`. -/
def evaluateChanged (ev : UUID → NodeEvaluator) (change : RouterChange)
    (s : Manager × RoutingUpdate) (nodeID : UUID) : Manager × RoutingUpdate :=
  let isNew := change.isNewNode nodeID
  let (m, info) := s.1.evaluateNode (ev nodeID) nodeID isNew
  let rs := match info with
    | some info => { s.2 with adds := s.2.adds.insert nodeID info }
    | none => { s.2 with deletes := s.2.deletes ++ [nodeID] }
  ({ m with knownNodeCount := if isNew then m.knownNodeCount + 1 else m.knownNodeCount }, rs)

/-- `evaluateRouterChange`, visiting the ids of the change in the given order. -/
def evaluateRouterChange (m : Manager) (ev : UUID → NodeEvaluator) (order : List UUID)
    (change : RouterChange) : Manager :=
  if ¬ change.changedState then m
  else
    let (m, rs) := order.foldl (evaluateChanged ev change) (m, {})
    { m with updates := rs :: m.updates }

/-- An iteration of the background worker that got `nodeID` from the pool. -/
def bgEvaluate (m : Manager) (ev : UUID → NodeEvaluator) (nodeID : UUID) : Manager :=
  let (m, info) := { m with pending := m.pending.erase nodeID }.evaluateNode (ev nodeID) nodeID true
  match info with
  | some info => { m with updates := { adds := AList.singleton nodeID info } :: m.updates }
  | none => { m with updates := { deletes := [nodeID] } :: m.updates }

end Manager

/-- The operations; `background` is the delivery of a node id by the delay pool. -/
inductive Op where
  | mergeNodeEvent (e : NodeEvent)
  | mergeHealthcheck (hc : Check)
  | mergeRouterState (s : RouterState)
  | background (nodeID : UUID)

/-- An operation with the evaluator's answers and the order of the evaluations. -/
structure Act where
  op : Op
  ev : UUID → NodeEvaluator
  order : List UUID

namespace Manager

/-- The merge of an operation: the state before any evaluation. -/
def merge (m : Manager) : Op → RouterState × RouterChange
  | .mergeNodeEvent e => m.state.mergeNodeEvent e
  | .mergeHealthcheck hc => m.state.mergeHealthcheck hc
  | .mergeRouterState s => m.state.mergeState s
  | .background _ => (m.state, {})

def step (m : Manager) (act : Act) : Manager :=
  match act.op with
  | .background nodeID => m.bgEvaluate act.ev nodeID
  | op =>
    let (state, change) := m.merge op
    { m with state := state }.evaluateRouterChange act.ev act.order change

/-- The act can happen: the order lists the ids of the change, and the pool can deliver the id. -/
def Enabled (m : Manager) (act : Act) : Prop :=
  match act.op with
  | .background nodeID => nodeID ∈ m.pending
  | op => act.order.Nodup ∧ act.order.toFinset = (m.merge op).2.nodeIDs

instance (m : Manager) : ∀ act : Act, Decidable (m.Enabled act)
  | ⟨.background nodeID, _, _⟩ => inferInstanceAs (Decidable (nodeID ∈ m.pending))
  | ⟨.mergeNodeEvent _, _, _⟩ => inferInstanceAs (Decidable (_ ∧ _))
  | ⟨.mergeHealthcheck _, _, _⟩ => inferInstanceAs (Decidable (_ ∧ _))
  | ⟨.mergeRouterState _, _, _⟩ => inferInstanceAs (Decidable (_ ∧ _))

end Manager

/-- The counter is the number of known nodes. -/
def Manager.Exact (m : Manager) : Prop := m.knownNodeCount = m.state.known.card

/-- The nodes that `IsNewNode` reports when `s` is merged into `r`: those with a new agent, or, if
no agent is new, those with new health. -/
def RouterState.reportedNew (r s : RouterState) : Finset UUID :=
  if (Table.keySet s.agents \ Table.keySet r.agents).Nonempty then
    Table.keySet s.agents \ Table.keySet r.agents
  else Table.keySet s.health \ Table.keySet r.health

/-- The operation counts right: a node whose agent or health is new was not known before; as many
nodes are reported new as become known; a node evaluated in the background is still known. -/
def Manager.CountsRight (m : Manager) : Op → Prop
  | .mergeNodeEvent e => e.nodeID ∈ m.state.agents ∨ e.nodeID ∉ m.state.health
  | .mergeHealthcheck hc => hc.nodeID ∈ m.state.health ∨ hc.nodeID ∉ m.state.agents
  | .mergeRouterState s =>
    (m.state.reportedNew s).card = (s.known \ m.state.known).card
  | .background nodeID => nodeID ∈ m.state.known

instance (m : Manager) : ∀ op : Op, Decidable (m.CountsRight op)
  | .mergeNodeEvent _ => inferInstanceAs (Decidable (_ ∨ _))
  | .mergeHealthcheck _ => inferInstanceAs (Decidable (_ ∨ _))
  | .mergeRouterState _ => inferInstanceAs (Decidable (_ = _))
  | .background nodeID => inferInstanceAs (Decidable (nodeID ∈ m.state.known))

/-- The evaluator keeps the node, as it stands in `s`. -/
def Keeps (ev : UUID → NodeEvaluator) (s : RouterState) (id : UUID) : Prop :=
  ((ev id).evaluate (s.agents.lookup id) (s.health.lookup id)).2 ≠ none

instance (ev : UUID → NodeEvaluator) (s : RouterState) (id : UUID) : Decidable (Keeps ev s id) :=
  inferInstanceAs (Decidable (_ ≠ _))

/-- Every known node has exactly one evaluation in the delay pool. -/
def Manager.OnePending (m : Manager) : Prop := ∀ id ∈ m.state.known, m.pending.count id = 1

/-- The node is neither known nor in the delay pool. -/
def Manager.Fresh (m : Manager) (id : UUID) : Prop := id ∉ m.state.known ∧ id ∉ m.pending

instance (m : Manager) (id : UUID) : Decidable (m.Fresh id) := inferInstanceAs (Decidable (_ ∧ _))

/-- The act schedules right: a node with an event has an agent or is fresh, and one with a health
check has health or is fresh. Of the nodes of a merged state, those reported new are fresh, and the
others are known or, evicted before, still in the delay pool once. Nodes that the evaluator evicts
do not count. -/
def Manager.SchedulesRight (m : Manager) (act : Act) : Prop :=
  match act.op with
  | .mergeNodeEvent e => Keeps act.ev (m.state.mergeNodeEvent e).1 e.nodeID →
    e.nodeID ∈ m.state.agents ∨ m.Fresh e.nodeID
  | .mergeHealthcheck hc => Keeps act.ev (m.state.mergeHealthcheck hc).1 hc.nodeID →
    hc.nodeID ∈ m.state.health ∨ m.Fresh hc.nodeID
  | .mergeRouterState s => ∀ id ∈ s.known, Keeps act.ev (m.state.mergeState s).1 id →
    if id ∈ m.state.reportedNew s then m.Fresh id
    else id ∈ m.state.known ∨ m.pending.count id = 1
  | .background _ => True

instance (m : Manager) : Decidable m.OnePending := Finset.decidableDforallFinset

instance (m : Manager) : ∀ act : Act, Decidable (m.SchedulesRight act)
  | ⟨.mergeNodeEvent _, _, _⟩ => inferInstanceAs (Decidable (_ → _))
  | ⟨.mergeHealthcheck _, _, _⟩ => inferInstanceAs (Decidable (_ → _))
  | ⟨.mergeRouterState _, _, _⟩ => Finset.decidableDforallFinset
  | ⟨.background _, _, _⟩ => .isTrue trivial

end Router
