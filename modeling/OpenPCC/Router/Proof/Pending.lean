import OpenPCC.Router.Proof.KnownNodes

/-!
# The evaluations that are pending

An evaluation of one node leaves the others and their places in the delay pool as they are
(`evaluateNode_frame`), so in the loop over a change each node is evaluated as it stands after the
merge (`evaluated_foldl`): it is evicted, or it is kept and scheduled once more if it is reported
new. As every known node has one evaluation pending before the step, a merge keeps that exactly when
the nodes reported new are neither known nor in the pool, and no other node becomes known that is
not in the pool once (`merge_onePending_iff`). A background evaluation takes the node out of the
pool and puts it back if it is kept.
-/

namespace Router

open Go Table

theorem mem_known {s : RouterState} {id : UUID} :
    id ∈ s.known ↔ id ∈ s.agents ∨ id ∈ s.health := by
  rw [RouterState.known, Finset.mem_union, mem_keySet, mem_keySet]

/-! ## Evaluations -/

/-- The node stands in `m'` as it does in `m`. -/
structure SameNode (m m' : Manager) (j : UUID) : Prop where
  agent : m'.state.agents.lookup j = m.state.agents.lookup j
  health : m'.state.health.lookup j = m.state.health.lookup j
  pending : m'.pending.count j = m.pending.count j

theorem SameNode.trans {m m' m'' : Manager} {j : UUID} (h : SameNode m m' j)
    (h' : SameNode m' m'' j) : SameNode m m'' j :=
  ⟨h'.agent.trans h.agent, h'.health.trans h.health, h'.pending.trans h.pending⟩

theorem known_congr {s s' : RouterState} {j : UUID}
    (ha : s'.agents.lookup j = s.agents.lookup j) (hh : s'.health.lookup j = s.health.lookup j) :
    j ∈ s'.known ↔ j ∈ s.known := by
  rw [mem_known, mem_known, ← AList.lookup_isSome, ← AList.lookup_isSome, ← AList.lookup_isSome,
    ← AList.lookup_isSome, ha, hh]

theorem SameNode.known_iff {m m' : Manager} {j : UUID} (h : SameNode m m' j) :
    j ∈ m'.state.known ↔ j ∈ m.state.known :=
  known_congr h.agent h.health

/-- What an evaluation of `id` does to `id`: it is evicted, or stays and is scheduled once more. -/
structure Evaluated (keeps : Prop) (sched : Bool) (m m' : Manager) (id : UUID) : Prop where
  known_iff : id ∈ m'.state.known ↔ id ∈ m.state.known ∧ keeps
  agent : keeps → m'.state.agents.lookup id = m.state.agents.lookup id
  pending : keeps → m'.pending.count id = m.pending.count id + if sched then 1 else 0

section Evaluations

variable (m : Manager) (ev : UUID → NodeEvaluator)

theorem evaluateNode_frame (id : UUID) (sched : Bool) {j : UUID} (hne : j ≠ id) :
    SameNode m (m.evaluateNode (ev id) id sched).1 j := by
  rw [Manager.evaluateNode]
  dsimp only
  split
  · refine ⟨rfl, rfl, ?_⟩
    dsimp only
    split
    · exact List.count_cons_of_ne hne.symm
    · rfl
  · exact ⟨AList.lookup_erase_ne hne, AList.lookup_erase_ne hne, rfl⟩

theorem evaluateNode_evaluated (id : UUID) (sched : Bool) :
    Evaluated (Keeps ev m.state id) sched m (m.evaluateNode (ev id) id sched).1 id := by
  rw [Manager.evaluateNode]
  dsimp only
  split
  · next hnext =>
    have hkeeps : Keeps ev m.state id := by
      rw [Keeps, hnext]
      exact Option.some_ne_none _
    refine ⟨(and_iff_left hkeeps).symm, fun _ => rfl, fun _ => ?_⟩
    dsimp only
    split
    · exact List.count_cons_self
    · rfl
  · next hnext =>
    have hevicts : ¬ Keeps ev m.state id := by
      rw [Keeps, hnext]
      exact fun h => h rfl
    refine ⟨?_, fun h => absurd h hevicts, fun h => absurd h hevicts⟩
    dsimp only
    rw [known_erase]
    simp [hevicts]

end Evaluations

section Changes

variable (ev : UUID → NodeEvaluator) (change : RouterChange)

theorem evaluateChanged_frame (s : Manager × RoutingUpdate) {id j : UUID} (hne : j ≠ id) :
    SameNode s.1 (Manager.evaluateChanged ev change s id).1 j := by
  obtain ⟨ha, hh, hp⟩ := evaluateNode_frame s.1 ev id (change.isNewNode id) hne
  exact ⟨ha, hh, hp⟩

theorem foldl_evaluateChanged_frame {order : List UUID} (s : Manager × RoutingUpdate) {j : UUID}
    (hj : j ∉ order) : SameNode s.1 (order.foldl (Manager.evaluateChanged ev change) s).1 j := by
  induction order generalizing s with
  | nil => exact ⟨rfl, rfl, rfl⟩
  | cons id order ih =>
    rw [List.mem_cons, not_or] at hj
    exact (evaluateChanged_frame ev change s hj.1).trans (ih _ hj.2)

theorem evaluated_foldl {order : List UUID} (hnd : order.Nodup) (s : Manager × RoutingUpdate)
    {id : UUID} (hid : id ∈ order) :
    Evaluated (Keeps ev s.1.state id) (change.isNewNode id) s.1
      (order.foldl (Manager.evaluateChanged ev change) s).1 id := by
  induction order generalizing s with
  | nil => exact absurd hid List.not_mem_nil
  | cons first order ih =>
    obtain ⟨hfirst, hnd⟩ := List.nodup_cons.1 hnd
    rw [List.foldl_cons]
    obtain rfl | hmem := List.mem_cons.1 hid
    · have hrest := foldl_evaluateChanged_frame ev change
        (Manager.evaluateChanged ev change s id) hfirst
      obtain ⟨hknown, hagent, hpending⟩ :=
        evaluateNode_evaluated s.1 ev id (change.isNewNode id)
      exact ⟨hrest.known_iff.trans hknown, fun hk => hrest.agent.trans (hagent hk),
        fun hk => hrest.pending.trans (hpending hk)⟩
    · have hne : id ≠ first := by
        rintro rfl
        exact hfirst hmem
      have hframe := evaluateChanged_frame ev change s hne
      have hkeeps : Keeps ev (Manager.evaluateChanged ev change s first).1.state id ↔
          Keeps ev s.1.state id := by
        rw [Keeps, Keeps, hframe.agent, hframe.health]
      obtain ⟨hknown, hagent, hpending⟩ :=
        ih hnd (Manager.evaluateChanged ev change s first) hmem
      refine ⟨?_, fun hk => ?_, fun hk => ?_⟩
      · rw [hknown, hframe.known_iff, hkeeps]
      · rw [hagent (hkeeps.2 hk), hframe.agent]
      · rw [hpending (hkeeps.2 hk), hframe.pending]

end Changes

/-! ## Steps and runs -/

/-- Without a change no node is visited, so the early return is the loop over no ids. -/
theorem evaluateRouterChange_eq_foldl (m : Manager) (ev : UUID → NodeEvaluator)
    {order : List UUID} {c : RouterChange} (hids : order.toFinset = c.nodeIDs) :
    (m.evaluateRouterChange ev order c).state =
        (order.foldl (Manager.evaluateChanged ev c) (m, {})).1.state ∧
      (m.evaluateRouterChange ev order c).pending =
        (order.foldl (Manager.evaluateChanged ev c) (m, {})).1.pending := by
  rw [Manager.evaluateRouterChange]
  split
  · next hc =>
    rw [RouterChange.nodeIDs_of_unchanged hc, List.toFinset_eq_empty_iff] at hids
    subst hids
    exact ⟨rfl, rfl⟩
  · exact ⟨rfl, rfl⟩

section
variable {m : Manager} {s : RouterState × RouterChange} {touched reported : Finset UUID}
  (hm : m.OnePending) (hs : MergeSpec m.state s touched reported) (ev : UUID → NodeEvaluator)
  {order : List UUID} (hnd : order.Nodup) (hids : order.toFinset = s.2.nodeIDs)
include hm hs hnd hids

/-- After a merge and the evaluations every known node has one evaluation pending if and only if, of
the nodes that are visited and kept, those reported new had none before and the others had one. -/
theorem evaluate_onePending_iff :
    ({ m with state := s.1 }.evaluateRouterChange ev order s.2).OnePending ↔
      ∀ id ∈ s.2.nodeIDs, Keeps ev s.1 id →
        m.pending.count id = if id ∈ reported then 0 else 1 := by
  obtain ⟨hstate, hpending⟩ := evaluateRouterChange_eq_foldl { m with state := s.1 } ev hids
  rw [Manager.OnePending, hstate, hpending]
  have heval : ∀ id ∈ s.2.nodeIDs, Evaluated (Keeps ev s.1 id) (s.2.isNewNode id)
      { m with state := s.1 }
      (order.foldl (Manager.evaluateChanged ev s.2) ({ m with state := s.1 }, {})).1 id := by
    intro id hid
    exact evaluated_foldl ev s.2 hnd ({ m with state := s.1 }, {})
      (List.mem_toFinset.1 (hids ▸ hid))
  simp only [← hs.newNodes_eq, ← RouterChange.isNewNode_iff]
  constructor
  · intro h id hid hkeeps
    have hone := h id ((heval id hid).known_iff.2 ⟨hs.nodeIDs_known hid, hkeeps⟩)
    rw [(heval id hid).pending hkeeps] at hone
    dsimp only at hone ⊢
    split at hone <;> split <;> first | omega | contradiction
  · intro h id hknown
    by_cases hid : id ∈ s.2.nodeIDs
    · obtain ⟨-, hkeeps⟩ := (heval id hid).known_iff.1 hknown
      rw [(heval id hid).pending hkeeps]
      dsimp only
      rw [h id hid hkeeps]
      split <;> rfl
    · -- a node that the change does not name was known, and had its evaluation pending
      have hframe := foldl_evaluateChanged_frame ev s.2 ({ m with state := s.1 }, {})
        fun hmem => hid (hids ▸ List.mem_toFinset.2 hmem)
      have hmerged : id ∈ s.1.known := hframe.known_iff.1 hknown
      rw [hs.known_eq] at hmerged
      rw [hframe.pending]
      refine hm id (by_contra fun hnot => hid (hs.sdiff_subset ?_))
      exact Finset.mem_sdiff.2 ⟨(Finset.mem_union.1 hmerged).resolve_left hnot, hnot⟩

/-- The same in terms of the nodes that are merged: since every known node has one evaluation
pending, those reported new must be fresh, and the others known or pending once. -/
theorem merge_onePending_iff :
    ({ m with state := s.1 }.evaluateRouterChange ev order s.2).OnePending ↔
      ∀ id ∈ touched, Keeps ev s.1 id →
        if id ∈ reported then m.Fresh id else id ∈ m.state.known ∨ m.pending.count id = 1 := by
  rw [evaluate_onePending_iff hm hs ev hnd hids]
  constructor
  · intro h id hid hkeeps
    split
    · next hnew =>
      have hzero := h id (RouterChange.newNodes_subset (hs.newNodes_eq ▸ hnew)) hkeeps
      rw [if_pos hnew] at hzero
      refine ⟨fun hknown => ?_, List.count_eq_zero.1 hzero⟩
      rw [hm id hknown] at hzero
      cases hzero
    · next hnew =>
      refine or_iff_not_imp_left.2 fun hnot => ?_
      rw [h id (hs.sdiff_subset (Finset.mem_sdiff.2 ⟨hid, hnot⟩)) hkeeps, if_neg hnew]
  · intro h id hid hkeeps
    have hright := h id (hs.nodeIDs_subset hid) hkeeps
    split at hright
    · next hnew => rw [if_pos hnew, List.count_eq_zero.2 hright.2]
    · next hnew =>
      rw [if_neg hnew]
      exact hright.elim (hm id) fun hone => hone

end

theorem singleton_schedules_iff {m : Manager} {keeps : UUID → Prop} {id : UUID} {a : Finset UUID}
    (ha : a ⊆ m.state.known) :
    (∀ j ∈ ({id} : Finset UUID), keeps j →
        if j ∈ ({id} : Finset UUID) \ a then m.Fresh j
        else j ∈ m.state.known ∨ m.pending.count j = 1) ↔
      (keeps id → id ∈ a ∨ m.Fresh id) := by
  simp only [Finset.mem_singleton, forall_eq, Finset.mem_sdiff, true_and]
  by_cases hid : id ∈ a
  · simp [hid, ha hid]
  · simp [hid]

theorem bgEvaluate_onePending {m : Manager} (hm : m.OnePending) (ev : UUID → NodeEvaluator)
    (nodeID : UUID) : (m.bgEvaluate ev nodeID).OnePending := by
  have hfields : (m.bgEvaluate ev nodeID).state =
        ({ m with pending := m.pending.erase nodeID }.evaluateNode (ev nodeID) nodeID
          true).1.state ∧
      (m.bgEvaluate ev nodeID).pending =
        ({ m with pending := m.pending.erase nodeID }.evaluateNode (ev nodeID) nodeID
          true).1.pending := by
    simp only [Manager.bgEvaluate]
    split <;> exact ⟨rfl, rfl⟩
  rw [Manager.OnePending, hfields.1, hfields.2]
  intro id hknown
  by_cases hid : id = nodeID
  · subst hid
    have heval := evaluateNode_evaluated { m with pending := m.pending.erase id } ev id true
    obtain ⟨hbefore, hkeeps⟩ := heval.known_iff.1 hknown
    have hone := hm id hbefore
    rw [heval.pending hkeeps]
    dsimp only
    rw [List.count_erase_self, hone]
    rfl
  · have hframe := evaluateNode_frame { m with pending := m.pending.erase nodeID } ev nodeID
      true hid
    rw [hframe.pending]
    dsimp only
    rw [List.count_erase_of_ne hid]
    exact hm id (hframe.known_iff.1 hknown)

theorem step_onePending_iff (m : Manager) (act : Act) (hm : m.OnePending) (he : m.Enabled act) :
    (m.step act).OnePending ↔ m.SchedulesRight act := by
  obtain ⟨op, ev, order⟩ := act
  cases op with
  | mergeNodeEvent e =>
    refine (merge_onePending_iff hm (mergeNodeEvent_spec m.state e) ev he.1 he.2).trans ?_
    rw [singleton_schedules_iff Finset.subset_union_left, mem_keySet]
    rfl
  | mergeHealthcheck hc =>
    refine (merge_onePending_iff hm (mergeHealthcheck_spec m.state hc) ev he.1 he.2).trans ?_
    rw [singleton_schedules_iff Finset.subset_union_right, mem_keySet]
    rfl
  | mergeRouterState s =>
    exact merge_onePending_iff hm (mergeState_spec m.state s) ev he.1 he.2
  | background nodeID => exact iff_of_true (bgEvaluate_onePending hm ev nodeID) trivial

/-- In every run, every known node has exactly one evaluation pending after every step if and only
if every step schedules right. -/
theorem onePending_iff (acts : List Act)
    (he : Trace.Along Manager.step Manager.Enabled {} acts) :
    Trace.Always Manager.step Manager.OnePending {} acts ↔
      Trace.Along Manager.step Manager.SchedulesRight {} acts := by
  have hempty : Manager.OnePending {} := by
    intro id hid
    exact absurd hid (Finset.notMem_empty id)
  exact Trace.always_iff_along step_onePending_iff hempty he

/-! ## Runs with none and with two evaluations -/

/-- A node that sends heartbeats, is evaluated in the background and shuts down. -/
theorem onePending_heartbeats :
    Trace.Always Manager.step Manager.OnePending {} [onNode (.mergeNodeEvent (heartbeatOf 1)),
      onNode (.mergeNodeEvent (heartbeatOf 2)), onNode (.background 1),
      onNode (.mergeNodeEvent (shutdownOf 3))] :=
  (onePending_iff _ (by decide)).2 (by decide)

/-- The state of a peer that has an agent for node 1 and a health check of node 2. -/
def peerState : RouterState where
  agents := AList.singleton 1 { lastEventIndex := 1, lastEventTimestamp := 10 }
  health := AList.singleton 2 ⟨[⟨2, [], 0, 15, 0, 200, []⟩]⟩

/-- The peer's state is merged into an empty one. -/
def peerRun : List Act := [⟨.mergeRouterState peerState, fun _ => shutdownEvaluator, [1, 2]⟩]

/-- After the first run node 1 has two evaluations pending; after the second node 2 is known and
has none. -/
theorem onePending_broken :
    (Trace.Along Manager.step Manager.Enabled {} checkedRun ∧
      (1 : UUID) ∈ (checkedRun.foldl Manager.step {}).state.known ∧
      (checkedRun.foldl Manager.step {}).pending.count 1 = 2) ∧
    (Trace.Along Manager.step Manager.Enabled {} peerRun ∧
      (2 : UUID) ∈ (peerRun.foldl Manager.step {}).state.known ∧
      (peerRun.foldl Manager.step {}).pending.count 2 = 0) := by
  decide

end Router
