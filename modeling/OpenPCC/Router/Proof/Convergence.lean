import OpenPCC.Router.Gossip

/-!
# Agent states converge

The state of an agent is a function of the events behind it (`Agent.Reflects`): the index and the
timestamp are those of the last event, the agent has shut down if that event is a shutdown, and the
routing info is the one that any event carries. Both merges keep this, with the union of the
events. So routers that have seen the same events of a node hold the same state of its agent,
whatever the events came through (`agents_converge`).
-/

namespace Router

open Go Table

variable {events S T : Finset NodeEvent} {a b : Agent} {e l k : NodeEvent} {id : UUID}

/-! ## One agent -/

/-- The info is the one that the events of a node carry. -/
def Informs (S : Finset NodeEvent) (info : Option RoutingInfo) : Prop :=
  ∀ i, info = some i ↔ ∃ e ∈ S, e.routingInfo = some i

/-- The agent is in the state that the events `S` of its node lead to; `l` is the last of them. -/
structure Agent.Reflects (a : Agent) (S : Finset NodeEvent) (l : NodeEvent) : Prop where
  mem : l ∈ S
  last : ∀ e ∈ S, e.eventIndex ≤ l.eventIndex
  index : a.lastEventIndex = l.eventIndex
  timestamp : a.lastEventTimestamp = l.timestamp
  shutdownAt : a.shutdownAt = if l.isShutdownEvent then some l.timestamp else none
  routingInfo : Informs S a.routingInfo

/-- Events of the node `id`, out of `events`. -/
structure OfNode (events : Finset NodeEvent) (id : UUID) (S : Finset NodeEvent) : Prop where
  subset : S ⊆ events
  nodeID : ∀ e ∈ S, e.nodeID = id

theorem Agent.mergeNodeEvent_routingInfo (a : Agent) (e : NodeEvent) :
    (a.mergeNodeEvent e).1.routingInfo = (a.routingInfo <|> e.routingInfo) := by
  rw [Agent.mergeNodeEvent]
  split
  · rfl
  · split
    · next h => cases ha : a.routingInfo <;> simp_all
    · next h => cases ha : a.routingInfo <;> simp_all

theorem Agent.mergeState_routingInfo (a b : Agent) :
    (a.mergeState b).1.routingInfo = (a.routingInfo <|> b.routingInfo) := by
  simp only [Agent.mergeState]
  cases a.routingInfo <;> cases b.routingInfo <;> simp

theorem Agent.reflects_new (e : NodeEvent) : (({} : Agent).mergeNodeEvent e).1.Reflects {e} e where
  mem := Finset.mem_singleton_self e
  last e' he := by rw [Finset.mem_singleton.1 he]
  index := by simp [Agent.mergeNodeEvent, Agent.isNewAgent]
  timestamp := by simp [Agent.mergeNodeEvent, Agent.isNewAgent]
  shutdownAt := by simp [Agent.mergeNodeEvent, Agent.isNewAgent]
  routingInfo i := by simp [Agent.mergeNodeEvent_routingInfo]

section Node

variable (hE : Consistent events)

include hE

theorem Informs.union (hST : OfNode events id (S ∪ T)) {i j : Option RoutingInfo}
    (hi : Informs S i) (hj : Informs T j) : Informs (S ∪ T) (i <|> j) := by
  intro info
  simp only [Finset.mem_union, or_and_right, exists_or, ← hi info, ← hj info]
  cases i with
  | none => simp
  | some x =>
    refine ⟨.inl, fun h => h.elim (fun hx => hx) fun hx => ?_⟩
    -- both sides have an info: an event of each carries it
    obtain ⟨e, he, hex⟩ := (hi x).1 rfl
    obtain ⟨e', he', hex'⟩ := (hj info).1 hx
    have he := Finset.mem_union_left T he
    have he' := Finset.mem_union_right S he'
    have hnode := (hST.nodeID e he).trans (hST.nodeID e' he').symm
    have hsame := hE.routingInfo e (hST.subset he) e' (hST.subset he') hnode (by simp [hex])
      (by simp [hex'])
    rw [hex, hex'] at hsame
    exact hsame

theorem last_unique (hS : OfNode events id S) (hl : l ∈ S)
    (hlast : ∀ e ∈ S, e.eventIndex ≤ l.eventIndex) (hk : k ∈ S)
    (hklast : ∀ e ∈ S, e.eventIndex ≤ k.eventIndex) : l = k :=
  hE.index l (hS.subset hl) k (hS.subset hk) ((hS.nodeID l hl).trans (hS.nodeID k hk).symm)
    (le_antisymm (hklast l hl) (hlast k hk))

theorem shutdown_of_lt (hS : OfNode events id S) (hl : l ∈ S) (he : e ∈ S)
    (hlt : l.eventIndex < e.eventIndex) (hl' : l.isShutdownEvent) : e.isShutdownEvent := by
  by_contra hne
  exact hE.shutdown l (hS.subset hl) e (hS.subset he)
    ((hS.nodeID l hl).trans (hS.nodeID e he).symm) hl' hne hlt

theorem Agent.Reflects.eq (hS : OfNode events id S) (ha : a.Reflects S l)
    (hb : b.Reflects S k) : a = b := by
  obtain rfl := last_unique hE hS ha.mem ha.last hb.mem hb.last
  have hinfo : a.routingInfo = b.routingInfo := by
    ext i
    exact (ha.routingInfo i).trans (hb.routingInfo i).symm
  have hindex := ha.index.trans hb.index.symm
  have htimestamp := ha.timestamp.trans hb.timestamp.symm
  have hshutdown := ha.shutdownAt.trans hb.shutdownAt.symm
  cases a
  cases b
  exact Agent.mk.injEq .. ▸ ⟨hindex, htimestamp, hinfo, hshutdown⟩

theorem Agent.Reflects.event (hS : OfNode events id (S ∪ {e})) (ha : a.Reflects S l) :
    ∃ k, (a.mergeNodeEvent e).1.Reflects (S ∪ {e}) k := by
  have hl := Finset.mem_union_left {e} ha.mem
  have he := Finset.mem_union_right S (Finset.mem_singleton_self e)
  have hinfo : Informs (S ∪ {e}) (a.mergeNodeEvent e).1.routingInfo := by
    rw [Agent.mergeNodeEvent_routingInfo]
    exact ha.routingInfo.union hE hS fun i => by simp
  have hold : a.isNewAgent = false := by
    simp [Agent.isNewAgent, ha.timestamp, hE.timestamp l (hS.subset hl)]
  by_cases hlt : l.eventIndex < e.eventIndex
  · -- a newer event becomes the last one; it is a shutdown if the agent has shut down
    have hmerge : (a.mergeNodeEvent e).1 =
        { lastEventIndex := e.eventIndex
          lastEventTimestamp := e.timestamp
          routingInfo := a.routingInfo <|> e.routingInfo
          shutdownAt := if e.isShutdownEvent then some e.timestamp else a.shutdownAt } := by
      simp [Agent.mergeNodeEvent, ha.index, hlt]
    refine ⟨e, he, fun e' he' => ?_, by rw [hmerge], by rw [hmerge], ?_, hinfo⟩
    · obtain he' | he' := Finset.mem_union.1 he'
      · exact (ha.last e' he').trans hlt.le
      · rw [Finset.mem_singleton.1 he']
    · rw [hmerge]
      dsimp only
      split
      · rfl
      · next hne => rw [ha.shutdownAt, if_neg (mt (shutdown_of_lt hE hS hl he hlt) hne)]
  · -- an older event can only add the routing info
    have hmerge : (a.mergeNodeEvent e).1.lastEventIndex = a.lastEventIndex ∧
        (a.mergeNodeEvent e).1.lastEventTimestamp = a.lastEventTimestamp ∧
        (a.mergeNodeEvent e).1.shutdownAt = a.shutdownAt := by
      rw [Agent.mergeNodeEvent, if_neg (by simp [hold, ha.index, hlt])]
      split <;> exact ⟨rfl, rfl, rfl⟩
    obtain ⟨hindex, htimestamp, hshutdown⟩ := hmerge
    refine ⟨l, hl, fun e' he' => ?_, hindex.trans ha.index, htimestamp.trans ha.timestamp,
      hshutdown.trans ha.shutdownAt, hinfo⟩
    obtain he' | he' := Finset.mem_union.1 he'
    · exact ha.last e' he'
    · rw [Finset.mem_singleton.1 he']
      exact not_lt.1 hlt

theorem Agent.Reflects.state (hST : OfNode events id (S ∪ T)) (ha : a.Reflects S l)
    (hb : b.Reflects T k) : ∃ m, (a.mergeState b).1.Reflects (S ∪ T) m := by
  have hl := Finset.mem_union_left T ha.mem
  have hk := Finset.mem_union_right S hb.mem
  have hinfo : Informs (S ∪ T) (a.mergeState b).1.routingInfo := by
    rw [Agent.mergeState_routingInfo]
    exact ha.routingInfo.union hE hST hb.routingInfo
  by_cases hlt : l.eventIndex < k.eventIndex
  · refine ⟨k, hk, fun e he => ?_, ?_, ?_, ?_, hinfo⟩
    · obtain he | he := Finset.mem_union.1 he
      · exact (ha.last e he).trans hlt.le
      · exact hb.last e he
    · simp [Agent.mergeState, ha.index, hb.index, hlt]
    · simp [Agent.mergeState, ha.index, hb.index, hb.timestamp, hlt]
    · simp only [Agent.mergeState, ha.index, hb.index, hlt, if_true, hb.shutdownAt]
      split
      · rfl
      · next hne =>
        rw [ha.shutdownAt, if_neg (mt (shutdown_of_lt hE hST hl hk hlt) hne)]
        rfl
  · refine ⟨l, hl, fun e he => ?_, ?_, ?_, ?_, hinfo⟩
    · obtain he | he := Finset.mem_union.1 he
      · exact ha.last e he
      · exact (hb.last e he).trans (not_lt.1 hlt)
    · simp [Agent.mergeState, ha.index, hb.index, hlt]
    · simp [Agent.mergeState, ha.index, hb.index, ha.timestamp, hlt]
    · simp [Agent.mergeState, ha.index, hb.index, ha.shutdownAt, hlt]

/-- What a router knows of an agent, after the events `S` of its node. -/
def Knows (S : Finset NodeEvent) : Option Agent → Prop
  | none => S = ∅
  | some a => ∃ l, a.Reflects S l

omit hE in
theorem knows_none : Knows S none ↔ S = ∅ := Iff.rfl

theorem Knows.event (hS : OfNode events id (S ∪ {e})) {o : Option Agent} (ho : Knows S o) :
    Knows (S ∪ {e}) (some ((o.getD {}).mergeNodeEvent e).1) := by
  cases o with
  | none =>
    rw [knows_none.1 ho, Finset.empty_union]
    exact ⟨e, Agent.reflects_new e⟩
  | some a =>
    obtain ⟨l, ha⟩ := ho
    exact ha.event hE hS

theorem Knows.state (hST : OfNode events id (S ∪ T)) {o p : Option Agent} (ho : Knows S o)
    (hp : Knows T p) : Knows (S ∪ T) (Option.merge (fun a b => (a.mergeState b).1) o p) := by
  cases o with
  | none =>
    rw [knows_none.1 ho, Finset.empty_union, Option.merge_none_left]
    exact hp
  | some a =>
    cases p with
    | none =>
      rw [knows_none.1 hp, Finset.union_empty, Option.merge_none_right]
      exact ho
    | some b =>
      obtain ⟨l, ha⟩ := ho
      obtain ⟨k, hb⟩ := hp
      exact ha.state hE hST hb

theorem Knows.eq (hS : OfNode events id S) {o p : Option Agent} (ho : Knows S o)
    (hp : Knows S p) : o = p := by
  cases o with
  | none =>
    cases p with
    | none => rfl
    | some b =>
      obtain ⟨k, hb⟩ := hp
      exact absurd hb.mem (by simp [knows_none.1 ho])
  | some a =>
    obtain ⟨l, ha⟩ := ho
    cases p with
    | none => exact absurd ha.mem (by simp [knows_none.1 hp])
    | some b =>
      obtain ⟨k, hb⟩ := hp
      rw [ha.eq hE hS hb]

end Node

/-! ## Replicas -/

namespace Replica

variable {r s t : Replica}

theorem eventsOf_mergeNodeEvent (r : Replica) (e : NodeEvent) (id : UUID) :
    (r.mergeNodeEvent e).eventsOf id =
      if id = e.nodeID then r.eventsOf id ∪ {e} else r.eventsOf id := by
  rw [eventsOf, mergeNodeEvent, Finset.filter_insert]
  by_cases hid : id = e.nodeID
  · rw [if_pos hid.symm, if_pos hid, Finset.union_comm, ← Finset.insert_eq, eventsOf]
  · rw [if_neg (Ne.symm hid), if_neg hid, eventsOf]

theorem eventsOf_mergeState (r s : Replica) (id : UUID) :
    (r.mergeState s).eventsOf id = r.eventsOf id ∪ s.eventsOf id :=
  Finset.filter_union ..

theorem ofNode_eventsOf (h : r.seen ⊆ events) (id : UUID) : OfNode events id (r.eventsOf id) where
  subset := (Finset.filter_subset ..).trans h
  nodeID _ he := (Finset.mem_filter.1 he).2

/-- What a router knows of the agents is what the events behind its state say. -/
structure Sound (events : Finset NodeEvent) (r : Replica) : Prop where
  subset : r.seen ⊆ events
  knows : ∀ id, Knows (r.eventsOf id) (r.state.agents.lookup id)

theorem Sound.mono {events' : Finset NodeEvent} (h : r.Sound events) (hsub : events ⊆ events') :
    r.Sound events' :=
  ⟨h.subset.trans hsub, h.knows⟩

theorem Sound.init : ({} : Replica).Sound events :=
  ⟨Finset.empty_subset _, fun _ => knows_none.2 rfl⟩

theorem Sound.event (hE : Consistent events) (h : r.Sound events) {e : NodeEvent}
    (he : e ∈ events) : (r.mergeNodeEvent e).Sound events := by
  have hsub : (r.mergeNodeEvent e).seen ⊆ events := Finset.insert_subset he h.subset
  refine ⟨hsub, fun id => ?_⟩
  have hnode := ofNode_eventsOf hsub id
  rw [eventsOf_mergeNodeEvent] at hnode ⊢
  change Knows _ ((upsert ..).table.lookup id)
  rw [lookup_upsert]
  by_cases hid : id = e.nodeID
  · subst hid
    rw [if_pos rfl] at hnode
    rw [if_pos rfl, if_pos rfl]
    exact (h.knows _).event hE hnode
  · rw [if_neg hid, if_neg hid]
    exact h.knows id

theorem Sound.healthcheck (h : r.Sound events) (hc : Check) :
    (r.mergeHealthcheck hc).Sound events :=
  ⟨h.subset, h.knows⟩

theorem Sound.state (hE : Consistent events) (h : r.Sound events) (hs : s.Sound events) :
    (r.mergeState s).Sound events := by
  have hsub : (r.mergeState s).seen ⊆ events := Finset.union_subset h.subset hs.subset
  refine ⟨hsub, fun id => ?_⟩
  have hnode := ofNode_eventsOf hsub id
  rw [eventsOf_mergeState] at hnode ⊢
  change Knows _ ((mergeWith ..).table.lookup id)
  rw [lookup_mergeWith]
  exact (h.knows id).state hE hnode (hs.knows id)

theorem Sound.lookup_eq (hE : Consistent events) (h : r.Sound events) (hs : s.Sound events)
    (hseen : r.eventsOf id = s.eventsOf id) :
    r.state.agents.lookup id = s.state.agents.lookup id := by
  have hknows := hs.knows id
  rw [← hseen] at hknows
  exact (h.knows id).eq hE (ofNode_eventsOf h.subset id) hknows

theorem Built.sound (hE : Consistent events) (h : Built events r) : r.Sound events := by
  induction h with
  | init => exact .init
  | event _ he ih => exact ih.event hE he
  | healthcheck _ hc ih => exact ih.healthcheck hc
  | state _ _ ihr ihother => exact ihr.state hE ihother

theorem Built.sameAgents (hE : Consistent events) (hr : Built events r) (hs : Built events s)
    (hseen : r.seen = s.seen) : SameAgents r s :=
  fun id => (hr.sound hE).lookup_eq hE (hs.sound hE) (by rw [eventsOf, eventsOf, hseen])

end Replica

/-! ## Runs -/

namespace Cluster

variable {ι : Type} [DecidableEq ι] {c c' : Cluster ι}

/-- Every state in the cluster, of a router or in a message, is built from the events. -/
structure AllBuilt (events : Finset NodeEvent) (c : Cluster ι) : Prop where
  routers : ∀ i, (c.routers i).Built events
  sent : ∀ r ∈ c.sent, r.Built events

theorem AllBuilt.set (h : AllBuilt events c) (i : ι) {r : Replica} (hr : r.Built events) :
    AllBuilt events (c.set i r) where
  routers j := by
    by_cases hj : j = i
    · subst hj
      simpa [Cluster.set] using hr
    · simpa [Cluster.set, hj] using h.routers j
  sent := h.sent

theorem Step.allBuilt (hstep : Step events c c') (h : AllBuilt events c) :
    AllBuilt events c' := by
  cases hstep with
  | event i he => exact h.set i ((h.routers i).event he)
  | healthcheck i hc => exact h.set i ((h.routers i).healthcheck hc)
  | send i => exact ⟨h.routers, List.forall_mem_cons.2 ⟨h.routers i, h.sent⟩⟩
  | receive i hsent => exact h.set i ((h.routers i).state (h.sent _ hsent))

theorem Reachable.allBuilt (h : Reachable events c) : AllBuilt events c := by
  induction h with
  | refl => exact ⟨fun _ => .init, fun _ hr => absurd hr List.not_mem_nil⟩
  | tail _ hstep ih => exact hstep.allBuilt ih

end Cluster

/-- Routers that have seen the same events of a node hold the same state of its agent; merging
states built from the events is commutative, associative and idempotent. -/
theorem agents_converge {ι : Type} [DecidableEq ι] (hE : Consistent events) {c : Cluster ι}
    (hc : c.Reachable events) :
    (∀ i j id, (c.routers i).eventsOf id = (c.routers j).eventsOf id →
      (c.routers i).state.agents.lookup id = (c.routers j).state.agents.lookup id) ∧
    ∀ r s t : Replica, r.Built events → s.Built events → t.Built events →
      (r.mergeState s).SameAgents (s.mergeState r) ∧
      ((r.mergeState s).mergeState t).SameAgents (r.mergeState (s.mergeState t)) ∧
      (r.mergeState r).SameAgents r := by
  refine ⟨fun i j id hseen => ?_, fun r s t hr hs ht => ⟨?_, ?_, ?_⟩⟩
  · have hbuilt := hc.allBuilt
    exact ((hbuilt.routers i).sound hE).lookup_eq hE ((hbuilt.routers j).sound hE) hseen
  · exact (hr.state hs).sameAgents hE (hs.state hr) (Finset.union_comm ..)
  · exact ((hr.state hs).state ht).sameAgents hE (hr.state (hs.state ht)) (Finset.union_assoc ..)
  · exact (hr.state hr).sameAgents hE hr (Finset.union_self _)

/-! ## A node that shuts down -/

def heartbeatEvent : NodeEvent := ⟨0, 1, 10, some ⟨none, some ⟨[1], [2], {[3]}, []⟩⟩⟩

def shutdownEvent : NodeEvent := ⟨1, 1, 20, none⟩

def bothEvents : Finset NodeEvent := {heartbeatEvent, shutdownEvent}

/-- Both routers hear of the shutdown. One has got the heartbeat before, the other gets it later
and in a message of the first. -/
def shutdownCluster : Cluster Bool :=
  let beat := ({} : Replica).mergeNodeEvent heartbeatEvent
  let heard := (Cluster.set {} true beat).send true
  let first := heard.set true ((heard.routers true).mergeNodeEvent shutdownEvent)
  let second := first.set false ((first.routers false).mergeNodeEvent shutdownEvent)
  second.set false ((second.routers false).mergeState beat)

theorem agents_converge_shutdown :
    (shutdownCluster.routers true).state.agents.lookup 1 =
        some ⟨1, 20, heartbeatEvent.routingInfo, some 20⟩ ∧
      (shutdownCluster.routers false).state.agents.lookup 1 =
        (shutdownCluster.routers true).state.agents.lookup 1 := by
  have hE : Consistent bothEvents := ⟨by decide, by decide, by decide, by decide⟩
  have hhb : heartbeatEvent ∈ bothEvents := by decide
  have hsd : shutdownEvent ∈ bothEvents := by decide
  have hreach : shutdownCluster.Reachable bothEvents :=
    ((((Relation.ReflTransGen.refl.tail (.event true hhb)).tail (.send true)).tail
      (.event true hsd)).tail (.event false hsd)).tail (.receive false (List.mem_cons_self ..))
  exact ⟨by decide +kernel, (agents_converge hE hreach).1 false true 1 (by decide +kernel)⟩

end Router
