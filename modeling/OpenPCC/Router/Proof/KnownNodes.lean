import OpenPCC.Lib.Trace
import OpenPCC.Router.Manager

/-!
# The number of known nodes

`surplus m` is what the counter shows above the number of known nodes. An evaluation of a known
node does not change it, whether the node is evicted or not (`surplus_evaluateNode`); visiting the
ids of a change adds one for each node reported new (`surplus_evaluateRouterChange`). A merge
lowers it by the nodes that become known (`MergeSpec`). So a step keeps the counter exact exactly
when as many nodes are reported new as become known (`merge_exact_iff`), or, in the background,
when the node is still known (`bgEvaluate_exact_iff`).
-/

namespace Router

open Go Table

namespace Manager

/-- The counter minus the number of known nodes. -/
def surplus (m : Manager) : Int := m.knownNodeCount - m.state.known.card

theorem exact_iff_surplus {m : Manager} : m.Exact ↔ m.surplus = 0 := by
  rw [Exact, surplus, Int.sub_eq_zero]

end Manager

/-! ## Evaluations -/

theorem known_erase (r : RouterState) (id : UUID) :
    RouterState.known ⟨r.agents.erase id, r.health.erase id⟩ = r.known.erase id := by
  rw [RouterState.known, RouterState.known, keySet_erase, keySet_erase, Finset.erase_union_distrib]

section Evaluations

variable (m : Manager) (ev : NodeEvaluator) (id : UUID) (sched : Bool)

theorem evaluateNode_cases :
    ((m.evaluateNode ev id sched).1.state.known = m.state.known.erase id ∧
      (m.evaluateNode ev id sched).1.knownNodeCount = m.knownNodeCount - 1 ∧
      (ev.evaluate (m.state.agents.lookup id) (m.state.health.lookup id)).2 = none) ∨
    ((m.evaluateNode ev id sched).1.state = m.state ∧
      (m.evaluateNode ev id sched).1.knownNodeCount = m.knownNodeCount ∧
      (ev.evaluate (m.state.agents.lookup id) (m.state.health.lookup id)).2 ≠ none) := by
  rw [Manager.evaluateNode]
  dsimp only
  split
  · next hnext => exact .inr ⟨rfl, rfl, by rw [hnext]; simp⟩
  · next hnext => exact .inl ⟨known_erase _ _, rfl, hnext⟩

theorem known_evaluateNode_of_ne {j : UUID} (hj : j ∈ m.state.known) (hne : j ≠ id) :
    j ∈ (m.evaluateNode ev id sched).1.state.known := by
  obtain ⟨hk, -⟩ | ⟨hk, -⟩ := evaluateNode_cases m ev id sched
  · rw [hk]
    exact Finset.mem_erase.2 ⟨hne, hj⟩
  · rw [hk]
    exact hj

theorem surplus_evaluateNode (hid : id ∈ m.state.known) :
    (m.evaluateNode ev id sched).1.surplus = m.surplus := by
  obtain ⟨hk, hc, -⟩ | ⟨hk, hc, -⟩ := evaluateNode_cases m ev id sched
  · have hcard := Finset.card_erase_add_one hid
    rw [Manager.surplus, Manager.surplus, hk, hc]
    omega
  · rw [Manager.surplus, Manager.surplus, hk, hc]

theorem surplus_evaluateNode_of_notMem (hid : id ∉ m.state.known) :
    (m.evaluateNode ev id sched).1.surplus = m.surplus - 1 := by
  rw [RouterState.known, Finset.mem_union, mem_keySet, mem_keySet, not_or] at hid
  have hnone : (ev.evaluate (m.state.agents.lookup id) (m.state.health.lookup id)).2 = none := by
    rw [AList.lookup_eq_none.2 hid.1, AList.lookup_eq_none.2 hid.2]
    exact ev.evicts_absent
  obtain ⟨hk, hc, -⟩ | ⟨-, -, hnext⟩ := evaluateNode_cases m ev id sched
  · have hid' : id ∉ m.state.known := by
      rw [RouterState.known, Finset.mem_union, mem_keySet, mem_keySet, not_or]
      exact hid
    rw [Manager.surplus, Manager.surplus, hk, hc, Finset.erase_eq_of_notMem hid']
    omega
  · exact absurd hnone hnext

end Evaluations

section Changes

variable (ev : UUID → NodeEvaluator) (change : RouterChange)

theorem surplus_evaluateChanged (s : Manager × RoutingUpdate) {id : UUID}
    (hid : id ∈ s.1.state.known) :
    (Manager.evaluateChanged ev change s id).1.surplus =
      s.1.surplus + if change.isNewNode id then 1 else 0 := by
  have h := surplus_evaluateNode s.1 (ev id) id (change.isNewNode id) hid
  rw [← h]
  simp only [Manager.evaluateChanged, Manager.surplus]
  split <;> omega

theorem known_evaluateChanged_of_ne (s : Manager × RoutingUpdate) {id j : UUID}
    (hj : j ∈ s.1.state.known) (hne : j ≠ id) :
    j ∈ (Manager.evaluateChanged ev change s id).1.state.known :=
  known_evaluateNode_of_ne s.1 (ev id) id (change.isNewNode id) hj hne

/-- The loop over the ids of a change: each node reported new adds one. -/
theorem surplus_foldl_evaluateChanged {order : List UUID} (hnd : order.Nodup)
    (s : Manager × RoutingUpdate) (hknown : ∀ id ∈ order, id ∈ s.1.state.known) :
    (order.foldl (Manager.evaluateChanged ev change) s).1.surplus =
      s.1.surplus + (order.filter change.isNewNode).length := by
  induction order generalizing s with
  | nil => simp
  | cons id order ih =>
    obtain ⟨hid, hnd⟩ := List.nodup_cons.1 hnd
    have hrest : ∀ j ∈ order, j ∈ (Manager.evaluateChanged ev change s id).1.state.known := by
      intro j hj
      apply known_evaluateChanged_of_ne ev change s (hknown j (List.mem_cons_of_mem _ hj))
      rintro rfl
      exact hid hj
    rw [List.foldl_cons, ih hnd _ hrest,
      surplus_evaluateChanged ev change s (hknown id List.mem_cons_self)]
    by_cases hnew : change.isNewNode id
    · rw [if_pos hnew, List.filter_cons_of_pos hnew, List.length_cons]
      omega
    · rw [if_neg hnew, List.filter_cons_of_neg hnew]
      omega

end Changes

/-! ## Changes -/

namespace RouterChange

/-- The nodes that `isNewNode` reports. -/
def newNodes (c : RouterChange) : Finset UUID :=
  if c.newAgents.Nonempty then c.newAgents else c.newHealth

variable {c : RouterChange}

theorem isNewNode_iff {id : UUID} : c.isNewNode id = true ↔ id ∈ c.newNodes := by
  rw [isNewNode, newNodes]
  by_cases ha : c.newAgents.Nonempty
  · simp [Finset.card_pos.2 ha, ha]
  · rw [Finset.not_nonempty_iff_eq_empty.1 ha]
    by_cases hh : c.newHealth.Nonempty
    · simp [Finset.card_pos.2 hh]
    · simp [Finset.not_nonempty_iff_eq_empty.1 hh]

theorem newNodes_subset : c.newNodes ⊆ c.nodeIDs := by
  intro id hid
  rw [newNodes] at hid
  simp only [nodeIDs, Finset.mem_union]
  split at hid
  · exact .inl (.inl (.inl hid))
  · exact .inl (.inr hid)

theorem nodeIDs_of_unchanged (h : ¬ c.changedState) : c.nodeIDs = ∅ := by
  simp only [changedState, changes, gt_iff_lt, decide_eq_true_eq, not_lt, Nat.le_zero_eq,
    Nat.add_eq_zero_iff, Finset.card_eq_zero] at h
  obtain ⟨⟨⟨h1, h2⟩, h3⟩, h4⟩ := h
  rw [nodeIDs, h1, h2, h3, h4]
  rfl

/-- A visit of every id of the change sees each new node once. -/
theorem length_filter_isNewNode {order : List UUID} (hnd : order.Nodup)
    (hids : order.toFinset = c.nodeIDs) :
    (order.filter c.isNewNode).length = c.newNodes.card := by
  rw [← List.toFinset_card_of_nodup (hnd.filter _), List.toFinset_filter, hids]
  congr 1
  ext id
  rw [Finset.mem_filter, isNewNode_iff]
  exact ⟨fun h => h.2, fun h => ⟨newNodes_subset h, h⟩⟩

end RouterChange

theorem surplus_evaluateRouterChange (m : Manager) (ev : UUID → NodeEvaluator)
    {order : List UUID} {c : RouterChange} (hnd : order.Nodup)
    (hids : order.toFinset = c.nodeIDs) (hknown : c.nodeIDs ⊆ m.state.known) :
    (m.evaluateRouterChange ev order c).surplus = m.surplus + c.newNodes.card := by
  rw [Manager.evaluateRouterChange]
  split
  · next hc =>
    have hnone : c.newNodes = ∅ := by
      rw [← Finset.subset_empty, ← RouterChange.nodeIDs_of_unchanged hc]
      exact RouterChange.newNodes_subset
    rw [hnone, Finset.card_empty]
    omega
  · have h := surplus_foldl_evaluateChanged ev c hnd (m, {}) fun id hid =>
      hknown (hids ▸ List.mem_toFinset.2 hid)
    rw [RouterChange.length_filter_isNewNode hnd hids] at h
    exact h

/-! ## Merges -/

/-- What a merge does to the set of known nodes: the nodes `touched` are known afterwards, the
change names some of them, among them all that were not known, and the nodes `reported` count as
new. -/
structure MergeSpec (r : RouterState) (s : RouterState × RouterChange) (touched : Finset UUID)
    (reported : Finset UUID) : Prop where
  known_eq : s.1.known = r.known ∪ touched
  nodeIDs_subset : s.2.nodeIDs ⊆ touched
  sdiff_subset : touched \ r.known ⊆ s.2.nodeIDs
  newNodes_eq : s.2.newNodes = reported

theorem MergeSpec.nodeIDs_known {r : RouterState} {s : RouterState × RouterChange}
    {touched reported : Finset UUID} (h : MergeSpec r s touched reported) :
    s.2.nodeIDs ⊆ s.1.known := by
  rw [h.known_eq]
  exact h.nodeIDs_subset.trans Finset.subset_union_right

theorem mergeSpec_of_touches {r : RouterState} {agents : Merged UUID Agent}
    {health : Merged UUID NodeHealth} {as hs touched reported : Finset UUID}
    (ha : Touches r.agents as agents) (hh : Touches r.health hs health) (ht : as ∪ hs = touched)
    (hr : (if agents.new.Nonempty then agents.new else health.new) = reported) :
    MergeSpec r (⟨agents.table, health.table⟩,
      ⟨agents.new, agents.updated, health.new, health.updated⟩) touched reported where
  known_eq := by
    rw [RouterState.known, RouterState.known, ha.keySet_eq, hh.keySet_eq,
      Finset.union_union_union_comm, ht]
  nodeIDs_subset := by
    rw [RouterChange.nodeIDs, Finset.union_assoc, ← ht, ha.new_eq, hh.new_eq]
    exact Finset.union_subset_union (Finset.union_subset Finset.sdiff_subset ha.updated_subset)
      (Finset.union_subset Finset.sdiff_subset hh.updated_subset)
  sdiff_subset := by
    intro id hid
    rw [← ht, RouterState.known] at hid
    simp only [RouterChange.nodeIDs, ha.new_eq, hh.new_eq, Finset.mem_union, Finset.mem_sdiff]
      at hid ⊢
    tauto
  newNodes_eq := hr

theorem mergeNodeEvent_spec (r : RouterState) (e : NodeEvent) :
    MergeSpec r (r.mergeNodeEvent e) {e.nodeID} ({e.nodeID} \ keySet r.agents) := by
  refine mergeSpec_of_touches (touches_upsert r.agents e.nodeID {} (·.mergeNodeEvent e))
    (touches_empty r.health) (Finset.union_empty _) ?_
  rw [new_upsert]
  split
  · rfl
  · next hnone => exact (Finset.not_nonempty_iff_eq_empty.1 hnone).symm

theorem mergeHealthcheck_spec (r : RouterState) (hc : Check) :
    MergeSpec r (r.mergeHealthcheck hc) {hc.nodeID} ({hc.nodeID} \ keySet r.health) := by
  refine mergeSpec_of_touches (touches_empty r.agents)
    (touches_upsert r.health hc.nodeID ⟨[]⟩ (·.mergeHealthcheck hc)) (Finset.empty_union _) ?_
  rw [if_neg Finset.not_nonempty_empty, new_upsert]

theorem mergeState_spec (r s : RouterState) :
    MergeSpec r (r.mergeState s) s.known (r.reportedNew s) := by
  refine mergeSpec_of_touches (touches_mergeWith Agent.mergeState r.agents s.agents)
    (touches_mergeWith NodeHealth.mergeState r.health s.health) rfl ?_
  rw [new_mergeWith, new_mergeWith]
  rfl

/-! ## Steps and runs -/

/-- A merge and the evaluations after it keep the counter exact if and only if as many nodes are
reported new as become known. -/
theorem merge_exact_iff {m : Manager} (hm : m.Exact) {s : RouterState × RouterChange}
    {touched reported : Finset UUID} (hs : MergeSpec m.state s touched reported)
    (ev : UUID → NodeEvaluator) {order : List UUID} (hnd : order.Nodup)
    (hids : order.toFinset = s.2.nodeIDs) :
    ({ m with state := s.1 }.evaluateRouterChange ev order s.2).Exact ↔
      reported.card = (touched \ m.state.known).card := by
  have hsurplus := surplus_evaluateRouterChange { m with state := s.1 } ev hnd hids
    hs.nodeIDs_known
  have hcard := Finset.card_sdiff_add_card touched m.state.known
  rw [Finset.union_comm, ← hs.known_eq] at hcard
  rw [hs.newNodes_eq] at hsurplus
  rw [Manager.exact_iff_surplus, hsurplus, Manager.surplus]
  rw [Manager.Exact] at hm
  dsimp only
  omega

theorem card_singleton_sdiff (id : UUID) (a : Finset UUID) :
    (({id} : Finset UUID) \ a).card = if id ∈ a then 0 else 1 := by
  split
  · next h =>
    rw [Finset.sdiff_eq_empty_iff_subset.2 (Finset.singleton_subset_iff.2 h), Finset.card_empty]
  · next h =>
    rw [Finset.sdiff_eq_self_of_disjoint (Finset.disjoint_singleton_left.2 h),
      Finset.card_singleton]

/-- One id: it is reported new when it is not in `a`, and becomes known when it is in neither. -/
theorem card_singleton_sdiff_iff {id : UUID} {a b : Finset UUID} :
    (({id} : Finset UUID) \ a).card = (({id} : Finset UUID) \ (a ∪ b)).card ↔
      (id ∈ a ∨ id ∉ b) := by
  rw [card_singleton_sdiff, card_singleton_sdiff]
  by_cases ha : id ∈ a
  · simp [ha]
  · by_cases hb : id ∈ b <;> simp [ha, hb]

theorem bgEvaluate_exact_iff {m : Manager} (hm : m.Exact) (ev : UUID → NodeEvaluator)
    (id : UUID) : (m.bgEvaluate ev id).Exact ↔ id ∈ m.state.known := by
  have hstate : (m.bgEvaluate ev id).surplus =
      ({ m with pending := m.pending.erase id }.evaluateNode (ev id) id true).1.surplus := by
    simp only [Manager.bgEvaluate]
    split <;> rfl
  rw [Manager.exact_iff_surplus] at hm ⊢
  rw [hstate]
  by_cases hid : id ∈ m.state.known
  · have h := surplus_evaluateNode { m with pending := m.pending.erase id } (ev id) id true hid
    exact iff_of_true (h.trans hm) hid
  · have h := surplus_evaluateNode_of_notMem { m with pending := m.pending.erase id } (ev id) id
      true hid
    refine iff_of_false (fun hzero => ?_) hid
    rw [hzero] at h
    change 0 = m.surplus - 1 at h
    omega

theorem step_exact_iff (m : Manager) (act : Act) (hm : m.Exact) (he : m.Enabled act) :
    (m.step act).Exact ↔ m.CountsRight act.op := by
  obtain ⟨op, ev, order⟩ := act
  cases op with
  | mergeNodeEvent e =>
    refine (merge_exact_iff hm (mergeNodeEvent_spec m.state e) ev he.1 he.2).trans ?_
    rw [RouterState.known, card_singleton_sdiff_iff, mem_keySet, mem_keySet]
    rfl
  | mergeHealthcheck hc =>
    refine (merge_exact_iff hm (mergeHealthcheck_spec m.state hc) ev he.1 he.2).trans ?_
    rw [RouterState.known, Finset.union_comm, card_singleton_sdiff_iff, mem_keySet, mem_keySet]
    rfl
  | mergeRouterState s =>
    exact merge_exact_iff hm (mergeState_spec m.state s) ev he.1 he.2
  | background id => exact bgEvaluate_exact_iff hm ev id

/-- In every run, the counter is the number of known nodes after every step if and only if every
step counts right. -/
theorem knownNodeCount_exact_iff (acts : List Act)
    (he : Trace.Along Manager.step Manager.Enabled {} acts) :
    Trace.Always Manager.step Manager.Exact {} acts ↔
      Trace.Along Manager.step (fun m act => m.CountsRight act.op) {} acts :=
  Trace.always_iff_along step_exact_iff rfl he

/-! ## Runs of one node -/

/-- Evicts nodes that have shut down or are not known, and keeps all others. -/
def shutdownEvaluator : NodeEvaluator where
  evaluate a h :=
    if (a.isNone && h.isNone) || a.any (·.shutdownAt.isSome) then (none, none) else (none, some 1)
  info_nil a h := by
    intro _
    split <;> rfl
  evicts_absent := rfl

/-- An operation on node 1, evaluated by `shutdownEvaluator`. -/
def onNode (op : Op) : Act := ⟨op, fun _ => shutdownEvaluator, [1]⟩

def heartbeatOf (i : Int) : NodeEvent := ⟨i, 1, 10, some ⟨none, none⟩⟩
def shutdownOf (i : Int) : NodeEvent := ⟨i, 1, 20, none⟩
def successfulCheck : Check := ⟨1, [], 0, 15, 0, 200, []⟩

/-- A node that keeps sending heartbeats and is evaluated again is counted once throughout. -/
theorem knownNodeCount_exact_heartbeats :
    Trace.Always Manager.step Manager.Exact {} [onNode (.mergeNodeEvent (heartbeatOf 1)),
      onNode (.mergeNodeEvent (heartbeatOf 2)), onNode (.background 1)] :=
  (knownNodeCount_exact_iff _ (by decide)).2 (by decide)

/-- The acts of a node that is health-checked after its first heartbeat. -/
def checkedRun : List Act :=
  [onNode (.mergeNodeEvent (heartbeatOf 1)), onNode (.mergeHealthcheck successfulCheck)]

/-- The acts of a node that shuts down before its background evaluation. -/
def shutdownRun : List Act :=
  [onNode (.mergeNodeEvent (heartbeatOf 1)), onNode (.mergeNodeEvent (shutdownOf 2)),
    onNode (.background 1)]

/-- After the first run the counter shows two nodes, and one is known; after the second it shows
minus one, and none is known. -/
theorem knownNodeCount_drifts :
    (Trace.Along Manager.step Manager.Enabled {} checkedRun ∧
      (checkedRun.foldl Manager.step {}).knownNodeCount = 2 ∧
      (checkedRun.foldl Manager.step {}).state.known = {1}) ∧
    (Trace.Along Manager.step Manager.Enabled {} shutdownRun ∧
      (shutdownRun.foldl Manager.step {}).knownNodeCount = -1 ∧
      (shutdownRun.foldl Manager.step {}).state.known = ∅) := by
  decide

end Router
