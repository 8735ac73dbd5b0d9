import OpenPCC.Router.Evaluation
import OpenPCC.Router.Proof.Pending

/-!
# The routing set and the agents

A merge reports every agent that it changed (`lookup_agents_merge`), and every node that a change
names is added to the routing set with the info of its evaluation or deleted from it
(`sets_foldl`). The graded evaluator gives out no info but that of a running agent
(`routes_gradedEvaluator`), and a node with an info is kept. So a step keeps the routing set sound
(`step_sound`), for every evaluator that routes to running agents only.
-/

namespace Router

open Go Table

/-! ## What a merge reports -/

theorem Agent.mergeNodeEvent_unchanged {a : Agent} {e : NodeEvent}
    (h : (a.mergeNodeEvent e).2 = false) : (a.mergeNodeEvent e).1 = a := by
  rw [Agent.mergeNodeEvent] at h ⊢
  split
  · next hnew => simp [hnew] at h
  · next hold =>
    split
    · next hinfo => simp [hold, hinfo] at h
    · rfl

theorem Agent.mergeState_unchanged {a other : Agent} (h : (a.mergeState other).2 = false) :
    (a.mergeState other).1 = a := by
  simp only [Agent.mergeState, decide_eq_false_iff_not, not_or] at h ⊢
  obtain ⟨hold, hinfo⟩ := h
  simp only [hold, hinfo, if_false]

theorem lookup_agents_merge {m : Manager} {op : Op} {id : UUID}
    (hid : id ∉ (m.merge op).2.nodeIDs) :
    (m.merge op).1.agents.lookup id = m.state.agents.lookup id := by
  simp only [RouterChange.nodeIDs, Finset.mem_union, not_or] at hid
  obtain ⟨⟨⟨hnew, hupdated⟩, -⟩, -⟩ := hid
  cases op with
  | mergeNodeEvent e =>
    exact lookup_upsert_of_unreported (fun _ => Agent.mergeNodeEvent_unchanged) hnew hupdated
  | mergeHealthcheck hc => rfl
  | mergeRouterState s =>
    exact lookup_mergeWith_of_unreported (fun _ _ => Agent.mergeState_unchanged) hnew hupdated
  | background nodeID => rfl

/-! ## What is added and deleted -/

/-- The update sets the node to `info`, or deletes it if there is none. -/
structure Sets (u : RoutingUpdate) (id : UUID) (info : Option RoutingInfo) : Prop where
  adds : u.adds.lookup id = info
  deletes : id ∈ u.deletes ↔ info = none

theorem lookup_foldl_erase {V : Type} (l : List UUID) (t : AList fun _ : UUID => V) (id : UUID) :
    (l.foldl (fun t j => t.erase j) t).lookup id = if id ∈ l then none else t.lookup id := by
  induction l generalizing t with
  | nil => simp
  | cons j l ih =>
    rw [List.foldl_cons, ih]
    by_cases hj : id = j
    · subst hj
      simp
    · simp [hj, AList.lookup_erase_ne hj]

theorem RoutingSet.lookup_update_of_sets {u : RoutingUpdate} {id : UUID}
    {info : Option RoutingInfo} (h : Sets u id info) (nodes : RoutingSet) :
    (RoutingSet.update nodes u).lookup id = info := by
  rw [RoutingSet.update, lookup_foldl_erase]
  cases info with
  | none => rw [if_pos (h.deletes.2 rfl)]
  | some i =>
    rw [if_neg fun hd => by cases h.deletes.1 hd]
    rw [AList.lookup_union_left]
    · exact h.adds
    · rw [← AList.lookup_isSome, h.adds]
      rfl

theorem RoutingSet.lookup_update_of_untouched {u : RoutingUpdate} {id : UUID}
    (hadds : u.adds.lookup id = none) (hdeletes : id ∉ u.deletes) (nodes : RoutingSet) :
    (RoutingSet.update nodes u).lookup id = nodes.lookup id := by
  rw [RoutingSet.update, lookup_foldl_erase, if_neg hdeletes]
  exact AList.lookup_union_right (AList.lookup_eq_none.1 hadds)

section Changes

variable (ev : UUID → NodeEvaluator) (change : RouterChange)

/-- The routing info an evaluation of the node gives, as the node stands in `s`. -/
def infoOf (s : RouterState) (id : UUID) : Option RoutingInfo :=
  ((ev id).evaluate (s.agents.lookup id) (s.health.lookup id)).1

theorem evaluateNode_info (m : Manager) (id : UUID) (sched : Bool) :
    (m.evaluateNode (ev id) id sched).2 = infoOf ev m.state id := by
  rw [Manager.evaluateNode, infoOf]
  dsimp only
  split <;> rfl

theorem evaluateNode_updates (m : Manager) (id : UUID) (sched : Bool) :
    (m.evaluateNode (ev id) id sched).1.updates = m.updates := by
  rw [Manager.evaluateNode]
  dsimp only
  split <;> rfl

theorem foldl_evaluateChanged_updates (order : List UUID) (s : Manager × RoutingUpdate) :
    (order.foldl (Manager.evaluateChanged ev change) s).1.updates = s.1.updates := by
  induction order generalizing s with
  | nil => rfl
  | cons id order ih =>
    rw [List.foldl_cons, ih]
    exact evaluateNode_updates ev s.1 id (change.isNewNode id)

/-- The update leaves the node as it is. -/
structure Untouched (u u' : RoutingUpdate) (j : UUID) : Prop where
  adds : u'.adds.lookup j = u.adds.lookup j
  deletes : j ∈ u'.deletes ↔ j ∈ u.deletes

theorem evaluateChanged_untouched (s : Manager × RoutingUpdate) {id j : UUID} (hne : j ≠ id) :
    Untouched s.2 (Manager.evaluateChanged ev change s id).2 j := by
  simp only [Manager.evaluateChanged]
  split
  · exact ⟨AList.lookup_insert_ne hne, Iff.rfl⟩
  · exact ⟨rfl, by simp [hne]⟩

theorem evaluateChanged_sets (s : Manager × RoutingUpdate) {id : UUID}
    (hadds : s.2.adds.lookup id = none) (hdeletes : id ∉ s.2.deletes) :
    Sets (Manager.evaluateChanged ev change s id).2 id (infoOf ev s.1.state id) := by
  rw [← evaluateNode_info ev s.1 id (change.isNewNode id)]
  simp only [Manager.evaluateChanged]
  split
  · next info hinfo =>
    rw [hinfo]
    exact ⟨AList.lookup_insert _, by simp [hdeletes]⟩
  · next hinfo =>
    rw [hinfo]
    exact ⟨hadds, by simp⟩

theorem foldl_evaluateChanged_untouched {order : List UUID} (s : Manager × RoutingUpdate)
    {j : UUID} (hj : j ∉ order) :
    Untouched s.2 (order.foldl (Manager.evaluateChanged ev change) s).2 j := by
  induction order generalizing s with
  | nil => exact ⟨rfl, Iff.rfl⟩
  | cons id order ih =>
    rw [List.mem_cons, not_or] at hj
    have hid := evaluateChanged_untouched ev change s hj.1
    have hrest := ih (Manager.evaluateChanged ev change s id) hj.2
    exact ⟨hrest.adds.trans hid.adds, hrest.deletes.trans hid.deletes⟩

theorem sets_foldl {order : List UUID} (hnd : order.Nodup) (s : Manager × RoutingUpdate)
    {id : UUID} (hid : id ∈ order) (hadds : s.2.adds.lookup id = none)
    (hdeletes : id ∉ s.2.deletes) :
    Sets (order.foldl (Manager.evaluateChanged ev change) s).2 id (infoOf ev s.1.state id) := by
  induction order generalizing s with
  | nil => exact absurd hid List.not_mem_nil
  | cons first order ih =>
    obtain ⟨hfirst, hnd⟩ := List.nodup_cons.1 hnd
    rw [List.foldl_cons]
    obtain rfl | hmem := List.mem_cons.1 hid
    · have hset := evaluateChanged_sets ev change s hadds hdeletes
      have hrest := foldl_evaluateChanged_untouched ev change
        (Manager.evaluateChanged ev change s id) hfirst
      exact ⟨hrest.adds.trans hset.adds, hrest.deletes.trans hset.deletes⟩
    · have hne : id ≠ first := by
        rintro rfl
        exact hfirst hmem
      have hframe := evaluateChanged_frame ev change s hne
      have huntouched := evaluateChanged_untouched ev change s hne
      have hinfo : infoOf ev (Manager.evaluateChanged ev change s first).1.state id =
          infoOf ev s.1.state id := by
        rw [infoOf, infoOf, hframe.agent, hframe.health]
      rw [← hinfo]
      exact ih hnd _ hmem (huntouched.adds.trans hadds) (mt huntouched.deletes.1 hdeletes)

end Changes

/-! ## Steps and runs -/

/-- The evaluator gives out no info but that of a running agent. -/
def Routes (ev : NodeEvaluator) : Prop :=
  ∀ a nh info, (ev.evaluate a nh).1 = some info →
    ∃ agent, a = some agent ∧ agent.routingInfo = some info ∧ agent.shutdownAt = none

theorem routes_gradedEvaluator (g : Grader) (interval : Int) (t : Clocks) :
    Routes (gradedEvaluator g interval t) := by
  intro a nh info h
  simp only [gradedEvaluator] at h
  split at h
  · next r hr =>
    obtain rfl | rfl | ⟨agent, ha, hrunning, rfl⟩ := gradedNodeEvaluator_cases hr
    · cases h
    · cases h
    · exact ⟨agent, ha, h, hrunning⟩
  · cases h

theorem Routes.agent {ev : UUID → NodeEvaluator} {id : UUID} (hev : Routes (ev id))
    {s : RouterState} {info : RoutingInfo} (h : infoOf ev s id = some info) :
    Keeps ev s id ∧ ∃ agent, s.agents.lookup id = some agent ∧
      agent.routingInfo = some info ∧ agent.shutdownAt = none := by
  refine ⟨fun hnext => ?_, hev _ _ _ h⟩
  have hnone := (ev id).info_nil _ _ hnext
  rw [infoOf, hnone] at h
  cases h

theorem merge_sound {m : Manager} (hm : m.Sound) (op : Op) {ev : UUID → NodeEvaluator}
    (hev : ∀ id, Routes (ev id)) {order : List UUID} (hnd : order.Nodup)
    (hids : order.toFinset = (m.merge op).2.nodeIDs) :
    ({ m with state := (m.merge op).1 }.evaluateRouterChange ev order (m.merge op).2).Sound := by
  intro id info hroute
  by_cases hid : id ∈ order
  · -- the node is visited: the routing set has the info of its evaluation
    have hmem : id ∈ (m.merge op).2.nodeIDs := hids ▸ List.mem_toFinset.2 hid
    have hchanged : (m.merge op).2.changedState := by
      by_contra hc
      rw [RouterChange.nodeIDs_of_unchanged hc] at hmem
      exact Finset.notMem_empty id hmem
    simp only [Manager.evaluateRouterChange, hchanged, not_true_eq_false, if_false] at hroute ⊢
    have hset := sets_foldl ev (m.merge op).2 hnd ({ m with state := (m.merge op).1 }, {}) hid
      rfl List.not_mem_nil
    have hinfo := (RoutingSet.lookup_update_of_sets hset _).symm.trans hroute
    obtain ⟨hkeeps, agent, hagent, hrest⟩ := (hev id).agent hinfo
    have heval := evaluated_foldl ev (m.merge op).2 hnd
      ({ m with state := (m.merge op).1 }, {}) hid
    exact ⟨agent, (heval.agent hkeeps).trans hagent, hrest⟩
  · -- a node that is not visited keeps its agent and its place in the routing set
    have hmem : id ∉ (m.merge op).2.nodeIDs := fun h => hid (List.mem_toFinset.1 (hids ▸ h))
    obtain ⟨hstate, -⟩ := evaluateRouterChange_eq_foldl
      { m with state := (m.merge op).1 } ev hids
    have hframe := foldl_evaluateChanged_frame ev (m.merge op).2
      ({ m with state := (m.merge op).1 }, {}) hid
    have hroute' : m.routingSet.lookup id = some info := by
      rw [Manager.evaluateRouterChange] at hroute
      split at hroute
      · exact hroute
      · have huntouched := foldl_evaluateChanged_untouched ev (m.merge op).2
          ({ m with state := (m.merge op).1 }, {}) hid
        have hupdate := RoutingSet.lookup_update_of_untouched (huntouched.adds.trans rfl)
          (mt huntouched.deletes.1 List.not_mem_nil) m.routingSet
        have hupdates := foldl_evaluateChanged_updates ev (m.merge op).2 order
          ({ m with state := (m.merge op).1 }, {})
        rw [← hupdate, ← hroute]
        simp only [Manager.routingSet, List.foldr_cons, hupdates]
    obtain ⟨agent, hagent, hrest⟩ := hm id info hroute'
    refine ⟨agent, ?_, hrest⟩
    rw [hstate, hframe.agent]
    exact (lookup_agents_merge hmem).trans hagent

theorem bgEvaluate_update (m : Manager) (ev : UUID → NodeEvaluator) (nodeID : UUID) :
    (m.bgEvaluate ev nodeID).state =
        ({ m with pending := m.pending.erase nodeID }.evaluateNode (ev nodeID) nodeID
          true).1.state ∧
      ∃ u : RoutingUpdate, (m.bgEvaluate ev nodeID).routingSet =
          RoutingSet.update m.routingSet u ∧
        Sets u nodeID (infoOf ev m.state nodeID) ∧
        ∀ j, j ≠ nodeID → u.adds.lookup j = none ∧ j ∉ u.deletes := by
  have hinfo := evaluateNode_info ev { m with pending := m.pending.erase nodeID } nodeID true
  have hroutes : ({ m with pending := m.pending.erase nodeID }.evaluateNode (ev nodeID) nodeID
      true).1.routingSet = m.routingSet := by
    rw [Manager.routingSet, evaluateNode_updates]
    rfl
  rw [← hroutes]
  change _ = infoOf ev m.state nodeID at hinfo
  simp only [Manager.bgEvaluate]
  rw [hinfo]
  cases infoOf ev m.state nodeID with
  | some info =>
    refine ⟨rfl, { adds := AList.singleton nodeID info }, rfl, ⟨?_, by simp⟩, fun j hj => ?_⟩
    · exact AList.lookup_insert (∅ : AList fun _ : UUID => RoutingInfo)
    · exact ⟨(AList.lookup_insert_ne hj).trans (AList.lookup_empty j), List.not_mem_nil⟩
  | none =>
    exact ⟨rfl, { deletes := [nodeID] }, rfl, ⟨rfl, by simp⟩, fun j hj => ⟨rfl, by simp [hj]⟩⟩

theorem bgEvaluate_sound {m : Manager} (hm : m.Sound) {ev : UUID → NodeEvaluator}
    {nodeID : UUID} (hev : Routes (ev nodeID)) : (m.bgEvaluate ev nodeID).Sound := by
  obtain ⟨hstate, u, hroutes, hset, hother⟩ := bgEvaluate_update m ev nodeID
  intro id info hroute
  rw [hroutes] at hroute
  rw [hstate]
  by_cases hid : id = nodeID
  · subst hid
    rw [RoutingSet.lookup_update_of_sets hset] at hroute
    obtain ⟨hkeeps, agent, hagent, hrest⟩ := hev.agent hroute
    have heval := evaluateNode_evaluated { m with pending := m.pending.erase id } ev id true
    exact ⟨agent, (heval.agent hkeeps).trans hagent, hrest⟩
  · obtain ⟨hadds, hdeletes⟩ := hother id hid
    rw [RoutingSet.lookup_update_of_untouched hadds hdeletes] at hroute
    obtain ⟨agent, hagent, hrest⟩ := hm id info hroute
    have hframe := evaluateNode_frame { m with pending := m.pending.erase nodeID } ev nodeID
      true hid
    exact ⟨agent, hframe.agent.trans hagent, hrest⟩

theorem step_sound {m : Manager} {act : Act} (hm : m.Sound) (he : m.Enabled act)
    (hev : ∀ id, Routes (act.ev id)) : (m.step act).Sound := by
  obtain ⟨op, ev, order⟩ := act
  cases op with
  | mergeNodeEvent e => exact merge_sound hm (.mergeNodeEvent e) hev he.1 he.2
  | mergeHealthcheck hc => exact merge_sound hm (.mergeHealthcheck hc) hev he.1 he.2
  | mergeRouterState s => exact merge_sound hm (.mergeRouterState s) hev he.1 he.2
  | background nodeID => exact bgEvaluate_sound hm (hev nodeID)

theorem gradedStep_eq_ok_iff {g : Grader} {interval : Int} {m m' : Manager} {x : GradedAct} :
    m.gradedStep g interval x = .ok m' ↔
      x.returns g interval (m.merge x.op).1 ∧ m.step (x.act g interval) = m' := by
  rw [Manager.gradedStep]
  split
  · next h => simp [h]
  · next h => simp [h]

theorem GradedReachable.sound {g : Grader} {interval : Int} {m : Manager}
    (h : Manager.GradedReachable g interval m) : m.Sound := by
  induction h with
  | init =>
    intro id info hroute
    cases hroute
  | @step m m' x hm he hstep ih =>
    obtain ⟨-, rfl⟩ := gradedStep_eq_ok_iff.1 hstep
    exact step_sound ih he fun id => routes_gradedEvaluator g interval (x.clocks id)

/-- After every completed step of a manager with the graded evaluator, every entry of the routing
set has a running agent with that routing info; a node without an agent, or whose agent has shut
down, is not routed to. -/
theorem routingSet_sound (g : Grader) (interval : Int) {m : Manager}
    (h : m.GradedReachable g interval) :
    m.Sound ∧ ∀ id, (∀ agent, m.state.agents.lookup id = some agent → agent.shutdownAt.isSome) →
      m.routingSet.lookup id = none := by
  have hsound := GradedReachable.sound h
  refine ⟨hsound, fun id hstopped => ?_⟩
  cases hroute : m.routingSet.lookup id with
  | none => rfl
  | some info =>
    obtain ⟨agent, hagent, -, hrunning⟩ := hsound id info hroute
    have hshut := hstopped agent hagent
    rw [hrunning] at hshut
    cases hshut

/-! ## A run of one node -/

/-- One successful check is enough. -/
def lenientGrader : Grader := ⟨{ minChecks := 1 }⟩

def nodeInfo : RoutingInfo := ⟨[1], [2], {[3]}, []⟩

/-- The node sends a heartbeat with its routing info, while all clocks show 20. -/
def infoAct : GradedAct :=
  ⟨.mergeNodeEvent ⟨1, 1, 10, some ⟨none, some nodeInfo⟩⟩, fun _ => ⟨20, 20⟩, [1]⟩

/-- The node passes a health check. -/
def checkAct : GradedAct := ⟨.mergeHealthcheck successfulCheck, fun _ => ⟨20, 20⟩, [1]⟩

def announcedState : Manager := Manager.step {} (infoAct.act lenientGrader 5)

def checkedState : Manager := announcedState.step (checkAct.act lenientGrader 5)

theorem routingSet_sound_checked :
    checkedState.routingSet.lookup 1 = some nodeInfo ∧ checkedState.Sound := by
  have hannounced : announcedState.GradedReachable lenientGrader 5 := by
    refine .step (x := infoAct) .init (by decide +kernel) (gradedStep_eq_ok_iff.2 ⟨?_, ?_⟩)
    · decide +kernel
    · rw [announcedState]
  have hchecked : checkedState.GradedReachable lenientGrader 5 := by
    refine .step (x := checkAct) hannounced (by decide +kernel)
      (gradedStep_eq_ok_iff.2 ⟨?_, ?_⟩)
    · decide +kernel
    · rw [checkedState]
  exact ⟨by decide +kernel, (routingSet_sound lenientGrader 5 hchecked).1⟩

end Router
