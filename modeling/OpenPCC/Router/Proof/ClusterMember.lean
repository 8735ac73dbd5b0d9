import Mathlib.Algebra.BigOperators.Group.Finset.Piecewise
import OpenPCC.Router.ClusterMember
import OpenPCC.Router.Proof.AgentClient
import OpenPCC.Router.Proof.Partition

/-!
# The members of a cluster share the health checks

* `mem_routers_memberAfter`: the ring of a member has the member itself and the routers that have
  joined and not left since.
* `clean_memberAfter`: without collisions it is the ring of these routers, whatever the order of the
  notifications.
* `healthchecks_shared`: members that know of each other check every node once.
* `handleMessage_message`: a member reads from a broadcast what the sender has added.
-/

namespace Router

open Go

variable {w : Wire} {id : UUID} {notes : List Notification} {n : Notification}

/-! ## Membership -/

theorem present_append_singleton :
    Present w (notes ++ [n]) id ↔ n.Joins w id ∨ Present w notes id ∧ ¬ n.Leaves w id := by
  constructor
  · rintro ⟨before, n', after, heq, hjoins, hafter⟩
    rcases List.eq_nil_or_concat after with rfl | ⟨after', last, rfl⟩
    · obtain ⟨-, hn⟩ := List.append_inj' heq rfl
      cases hn
      exact .inl hjoins
    · rw [List.concat_eq_append, ← List.cons_append, ← List.append_assoc] at heq
      obtain ⟨rfl, hn⟩ := List.append_inj' heq rfl
      cases hn
      refine .inr ⟨⟨before, n', after', rfl, hjoins, fun x hx => hafter x ?_⟩, hafter n ?_⟩
      · simp [hx]
      · simp
  · rintro (hjoins | ⟨⟨before, n', after, rfl, hjoins, hafter⟩, hleaves⟩)
    · exact ⟨notes, n, [], rfl, hjoins, fun _ h => by cases h⟩
    · refine ⟨before, n', after ++ [n], by simp, hjoins, fun x hx => ?_⟩
      rcases List.mem_append.1 hx with hx | hx
      · exact hafter x hx
      · rw [List.mem_singleton.1 hx]
        exact hleaves

namespace ClusterMember

variable {m : ClusterMember}

/-- What a notification does to the ring. -/
inductive Notified (w : Wire) (m : ClusterMember) (n : Notification) : ClusterMember → Prop where
  | joined {id : UUID} : id ≠ m.id → n.Joins w id → (∀ id', n.Joins w id' → id' = id) →
      (∀ id', ¬ n.Leaves w id') →
      Notified w m n { m with routerRing := m.routerRing.addRouter id }
  | left {id : UUID} : id ≠ m.id → n.Leaves w id → (∀ id', n.Leaves w id' → id' = id) →
      (∀ id', ¬ n.Joins w id') →
      Notified w m n { m with routerRing := m.routerRing.removeRouter id }
  | unchanged : (∀ id, n.Joins w id → id = m.id) → (∀ id, n.Leaves w id → id = m.id) →
      Notified w m n m

theorem notified (w : Wire) (m : ClusterMember) (n : Notification) :
    Notified w m n (m.notify w n) := by
  cases n with
  | join node =>
    have hleaves : ∀ id', ¬ (Notification.join node).Leaves w id' := fun _ h => h
    simp only [notify]
    split
    · next hparse =>
      refine .unchanged (fun id h => ?_) fun id h => absurd h (hleaves id)
      cases hparse.symm.trans h.1
    · next id hparse =>
      have hunique : ∀ id', (Notification.join node).Joins w id' → id' = id :=
        fun id' h => Except.ok.inj (h.1.symm.trans hparse)
      split
      · next hid =>
        exact .unchanged (fun id' h => (hunique id' h).trans hid) fun id' h =>
          absurd h (hleaves id')
      · next hid =>
        unfold handleNodeJoin
        split
        · next hmeta =>
          rw [addPeer, if_neg (Ne.symm hid)]
          exact .joined hid ⟨hparse, hmeta⟩ hunique hleaves
        · next hmeta =>
          exact .unchanged (fun id' h => (hmeta h.2).elim) fun id' h => absurd h (hleaves id')
  | leave node =>
    have hjoins : ∀ id', ¬ (Notification.leave node).Joins w id' := fun _ h => h
    simp only [notify]
    split
    · next hparse =>
      refine .unchanged (fun id h => absurd h (hjoins id)) fun id h => ?_
      cases hparse.symm.trans h
    · next id hparse =>
      have hunique : ∀ id', (Notification.leave node).Leaves w id' → id' = id :=
        fun id' h => Except.ok.inj (h.symm.trans hparse)
      split
      · next hid =>
        exact .unchanged (fun id' h => absurd h (hjoins id')) fun id' h => (hunique id' h).trans hid
      · next hid =>
        rw [handleNodeLeave, removePeer, if_neg (Ne.symm hid)]
        exact .left hid hparse hunique hjoins

theorem id_notify (w : Wire) (m : ClusterMember) (n : Notification) : (m.notify w n).id = m.id := by
  have h := notified w m n
  generalize m.notify w n = m' at h ⊢
  cases h <;> rfl

end ClusterMember

theorem memberAfter_append (notes : List Notification) (n : Notification) :
    memberAfter w id (notes ++ [n]) = (memberAfter w id notes).notify w n := by
  rw [memberAfter, List.foldl_append]
  rfl

theorem id_memberAfter (notes : List Notification) : (memberAfter w id notes).id = id := by
  induction notes using List.reverseRecOn with
  | nil => rfl
  | append_singleton notes n ih => rw [memberAfter_append, ClusterMember.id_notify, ih]

theorem not_present_nil : ¬ Present w [] id := by
  rintro ⟨before, n, after, heq, -⟩
  simp at heq

theorem mem_routers_memberAfter (notes : List Notification) (p : UUID) :
    p ∈ (memberAfter w id notes).routerRing.routers ↔ p = id ∨ Present w notes p := by
  induction notes using List.reverseRecOn with
  | nil =>
    simp [memberAfter, newClusterMember, Ring.routers_addRouter, newRing, not_present_nil]
  | append_singleton notes n ih =>
    rw [memberAfter_append, present_append_singleton]
    have hid : (memberAfter w id notes).id = id := id_memberAfter notes
    have h := ClusterMember.notified w (memberAfter w id notes) n
    generalize (memberAfter w id notes).notify w n = m' at h ⊢
    cases h with
    | @joined id' hne hjoins hunique hleaves =>
      show p ∈ (Ring.addRouter _ _).routers ↔ _
      rw [Ring.routers_addRouter, Finset.mem_insert, ih]
      have hp : n.Joins w p ↔ p = id' := ⟨hunique p, fun h => h ▸ hjoins⟩
      have hl := hleaves p
      tauto
    | @left id' hne hleaves hunique hjoins =>
      show p ∈ (Ring.removeRouter _ _).routers ↔ _
      rw [Ring.routers_removeRouter, Finset.mem_erase, ih]
      have hp : n.Leaves w p ↔ p = id' := ⟨hunique p, fun h => h ▸ hleaves⟩
      have hj := hjoins p
      rw [hid] at hne
      by_cases hpid : p = id
      · subst hpid
        simp [hne.symm]
      · tauto
    | unchanged hjoins hleaves =>
      rw [ih]
      have hj := hjoins p
      have hl := hleaves p
      rw [hid] at hj hl
      tauto

/-! ## Rings without collisions -/

/-- No two of the routers have a virtual position in common. -/
def Separate (ids : Finset UUID) : Prop :=
  ∀ id ∈ ids, ∀ id' ∈ ids, id ≠ id' → (virtualPositions id).Disjoint (virtualPositions id')

/-- If the member and all who join are separate, its ring is the one of the routers in it. -/
theorem clean_memberAfter {ids : Finset UUID} (hids : Separate ids) (hid : id ∈ ids)
    {notes : List Notification} (hnotes : ∀ n ∈ notes, ∀ p, n.Joins w p → p ∈ ids) :
    (memberAfter w id notes).routerRing.Clean ∧
      (memberAfter w id notes).routerRing.routers ⊆ ids := by
  induction notes using List.reverseRecOn with
  | nil =>
    refine ⟨(Ring.clean_newRing.step_iff (.add id)).2 fun _ id' hid' => (by cases hid'), ?_⟩
    show (newRing.addRouter id).routers ⊆ ids
    rw [Ring.routers_addRouter]
    exact Finset.insert_subset hid (Finset.empty_subset _)
  | append_singleton notes n ih =>
    obtain ⟨hclean, hsub⟩ := ih fun n' hn' => hnotes n' (by simp [hn'])
    rw [memberAfter_append]
    have h := ClusterMember.notified w (memberAfter w id notes) n
    generalize (memberAfter w id notes).notify w n = m' at h ⊢
    cases h with
    | @joined p hne hjoins hunique hleaves =>
      have hp := hnotes n (by simp) p hjoins
      refine ⟨(hclean.step_iff (.add p)).2 fun hnew id' hid' => ?_, ?_⟩
      · exact hids p hp id' (hsub hid') (ne_of_mem_of_not_mem hid' hnew).symm
      · show (Ring.addRouter _ p).routers ⊆ ids
        rw [Ring.routers_addRouter]
        exact Finset.insert_subset hp hsub
    | @left p hne hleaves hunique hjoins =>
      refine ⟨(hclean.step_iff (.remove p)).2 trivial, ?_⟩
      show (Ring.removeRouter _ p).routers ⊆ ids
      rw [Ring.routers_removeRouter]
      exact (Finset.erase_subset ..).trans hsub
    | unchanged hjoins hleaves => exact ⟨hclean, hsub⟩

/-! ## Targets -/

theorem lookup_healthcheckTargets (s : RouterState) (id : UUID) :
    s.healthcheckTargets.lookup id = s.healthcheckTarget id := by
  refine Option.ext fun url => ?_
  show url ∈ s.healthcheckTargets.lookup id ↔ _
  rw [AList.mem_lookup_iff, RouterState.healthcheckTargets, List.mem_filterMap]
  constructor
  · rintro ⟨⟨id', a⟩, ha, hentry⟩
    unfold healthcheckEntry at hentry
    split at hentry
    · next hcan =>
      obtain ⟨info, hinfo, heq⟩ := Option.map_eq_some_iff.1 hentry
      cases heq
      rw [← AList.mem_lookup_iff, Option.mem_def] at ha
      simp only [RouterState.healthcheckTarget, ha, hcan, if_true]
      rw [hinfo]
      rfl
    · cases hentry
  · intro h
    rw [RouterState.healthcheckTarget] at h
    split at h
    · cases h
    · next a ha =>
      refine ⟨⟨id, a⟩, AList.mem_lookup_iff.1 ha, ?_⟩
      unfold healthcheckEntry
      split at h
      · next hcan =>
        obtain ⟨info, hinfo, rfl⟩ := Option.map_eq_some_iff.1 h
        rw [if_pos hcan, hinfo]
        rfl
      · cases h

theorem nodeID_attempts (hc : Check) (attempts : List Attempt) :
    (hc.attempts attempts).nodeID = hc.nodeID := by
  induction attempts generalizing hc with
  | nil => rfl
  | cons a rest ih =>
    have hattempted : (hc.attempted a).nodeID = hc.nodeID := by
      unfold Check.attempted
      split <;> rfl
    rw [Check.attempts]
    split
    · exact hattempted
    · rw [ih, hattempted]

namespace ClusterMember

theorem nodeIDs_runHealthChecks (m : ClusterMember) (s : RouterState) (nodeIDs : List UUID)
    (attempts : UUID → List Attempt) :
    (m.runHealthChecks s nodeIDs attempts).map (·.nodeID) =
      (m.queryHealthcheckTargets s nodeIDs).keys := by
  rw [runHealthChecks, List.map_map]
  exact List.map_congr_left fun t _ => nodeID_attempts ..

theorem count_runHealthChecks (m : ClusterMember) (s : RouterState) (nodeIDs : List UUID)
    (attempts : UUID → List Attempt) (nodeID : UUID) :
    ((m.runHealthChecks s nodeIDs attempts).map (·.nodeID)).count nodeID =
      if nodeID ∈ (m.queryHealthcheckTargets s nodeIDs).keys then 1 else 0 := by
  rw [nodeIDs_runHealthChecks]
  split
  · next h => exact List.count_eq_one_of_mem (m.queryHealthcheckTargets s nodeIDs).nodupKeys h
  · next h => exact List.count_eq_zero_of_not_mem h

end ClusterMember

/-! ## Sharing -/

theorem Ring.Clean.partitions {r : Ring} (h : r.Clean) (hrouters : r.routers.Nonempty) :
    r.Partitions := by
  obtain ⟨id, hid⟩ := hrouters
  have hpos : virtualPosition id 0 ∈ virtualPositions id :=
    List.mem_map_of_mem (List.mem_range.2 (by decide))
  have hne : r.positions ≠ [] := List.ne_nil_of_mem ((h.mem_positions _).2 ⟨id, hid, hpos⟩)
  have hsorted : r.Sorted := by
    refine ⟨h.sorted.pairwise.imp Nat.le_of_lt, fun pos hpos => ?_⟩
    obtain ⟨id, -, hmem⟩ := (h.mem_positions pos).1 hpos
    obtain ⟨i, -, rfl⟩ := List.mem_map.1 hmem
    exact checksumIEEE_lt _
  exact partitions_of_owns hsorted hne fun i _ => exists_owns hne (fun _ => h.routerAt_mem) i

section Shared

variable {members ids : Finset UUID} {notes : UUID → List Notification}

/-- Members that know of each other have the same ring. -/
theorem routerRing_eq (hids : Separate ids) (hsub : members ⊆ ids)
    (hnotes : ∀ m ∈ members, ∀ n ∈ notes m, ∀ p, n.Joins w p → p ∈ ids)
    (hview : ∀ m ∈ members, ∀ p, p ≠ m → (Present w (notes m) p ↔ p ∈ members)) {m : UUID}
    (hm : m ∈ members) :
    (memberAfter w m (notes m)).routerRing.Clean ∧
      (memberAfter w m (notes m)).routerRing.routers = members := by
  refine ⟨(clean_memberAfter hids (hsub hm) (hnotes m hm)).1, Finset.ext fun p => ?_⟩
  rw [mem_routers_memberAfter]
  by_cases hp : p = m
  · subst hp
    simp [hm]
  · simp [hp, hview m hm p hp]

/-- Members of a cluster that each have the others, and only them, as present, and that know the
same nodes, check every node that can be checked once in a round of each of them, and no other:
whatever the order and the number of the notifications, and in whatever order the maps are read. No
two routers may have virtual positions in common and no two nodes the same position. -/
theorem healthchecks_shared (hids : Separate ids) (hsub : members ⊆ ids)
    (hmembers : members.Nonempty)
    (hnotes : ∀ m ∈ members, ∀ n ∈ notes m, ∀ p, n.Joins w p → p ∈ ids)
    (hview : ∀ m ∈ members, ∀ p, p ≠ m → (Present w (notes m) p ↔ p ∈ members))
    (s : RouterState) (hdistinct : (s.healthcheckTargets.keys.map nodePosition).Nodup)
    {order : UUID → List UUID} (horder : ∀ m, SortedNodes s.healthcheckTargets (order m))
    (attempts : UUID → UUID → List Attempt) (nodeID : UUID) :
    ∑ m ∈ members, (((memberAfter w m (notes m)).runHealthChecks s (order m)
        (attempts m)).map (·.nodeID)).count nodeID =
      if (s.healthcheckTarget nodeID).isSome then 1 else 0 := by
  obtain ⟨m₀, hm₀⟩ := hmembers
  obtain ⟨hclean, hrouters⟩ := routerRing_eq hids hsub hnotes hview hm₀
  generalize (memberAfter w m₀ (notes m₀)).routerRing = r at hclean hrouters
  obtain ⟨hdisjoint, hunion⟩ := hclean.partitions (hrouters ▸ ⟨m₀, hm₀⟩) s.healthcheckTargets order
    hdistinct horder
  rw [hrouters] at hdisjoint hunion
  -- every member queries the one ring
  have hcount : ∀ m ∈ members, (((memberAfter w m (notes m)).runHealthChecks s (order m)
      (attempts m)).map (·.nodeID)).count nodeID =
      if nodeID ∈ (r.queryHealthcheckURLs m s.healthcheckTargets (order m)).keys then 1 else 0 := by
    intro m hm
    obtain ⟨hcleanm, hroutersm⟩ := routerRing_eq hids hsub hnotes hview hm
    rw [ClusterMember.count_runHealthChecks, ClusterMember.queryHealthcheckTargets, id_memberAfter,
      hcleanm.eq hclean (hroutersm.trans hrouters.symm)]
  rw [Finset.sum_congr rfl hcount]
  rw [← lookup_healthcheckTargets]
  cases hurl : s.healthcheckTargets.lookup nodeID with
  | none =>
    refine Finset.sum_eq_zero fun m hm => if_neg fun hmem => ?_
    rw [← AList.mem_keys, ← AList.lookup_isSome, Option.isSome_iff_exists] at hmem
    obtain ⟨url, hquery⟩ := hmem
    cases hurl.symm.trans ((hunion nodeID url).2 ⟨m, hm, hquery⟩)
  | some url =>
    obtain ⟨m, hm, hquery⟩ := (hunion nodeID url).1 hurl
    have hmem : nodeID ∈ (r.queryHealthcheckURLs m s.healthcheckTargets (order m)).keys := by
      rw [← AList.mem_keys, ← AList.lookup_isSome, hquery]
      rfl
    refine (Finset.sum_eq_single m (fun m' hm' hne => if_neg fun hmem' => ?_)
      fun hnot => absurd hm hnot).trans (if_pos hmem)
    exact hdisjoint m hm m' hm' hne.symm hmem hmem'

end Shared

/-! ## Two members and a node -/

def peerA : UUID := BitVec.ofNat 128 (7 * 2 ^ 76 + 1)

def peerB : UUID := BitVec.ofNat 128 (7 * 2 ^ 76 + 2)

def peerNode (id : UUID) : MemberNode := ⟨plainWire.uuidString id, some ⟨some .routerV2⟩⟩

/-- The first member has left in between, as the second one has heard. -/
def peerNotes (id : UUID) : List Notification :=
  if id = peerA then [.join (peerNode peerB)]
  else [.join (peerNode peerA), .leave (peerNode peerA), .join (peerNode peerA)]

theorem peers_separate : Separate {peerA, peerB} := by
  have h : ∀ pos ∈ virtualPositions peerA, pos ∉ virtualPositions peerB := by decide +kernel
  intro id hid id' hid' hne
  simp only [Finset.mem_insert, Finset.mem_singleton] at hid hid'
  rcases hid with rfl | rfl <;> rcases hid' with rfl | rfl
  · exact absurd rfl hne
  · exact h
  · exact fun pos hpos hpos' => h pos hpos' hpos
  · exact absurd rfl hne

theorem parseV7_peerA : plainWire.parseV7 (plainWire.uuidString peerA) = .ok peerA :=
  Wire.parseV7_uuidString (by decide)

theorem parseV7_peerB : plainWire.parseV7 (plainWire.uuidString peerB) = .ok peerB :=
  Wire.parseV7_uuidString (by decide)

theorem present_peerNotes {id p : UUID} (hid : id ∈ ({peerA, peerB} : Finset UUID)) (hp : p ≠ id) :
    Present plainWire (peerNotes id) p ↔ p ∈ ({peerA, peerB} : Finset UUID) := by
  simp only [Finset.mem_insert, Finset.mem_singleton] at hid
  rcases hid with rfl | rfl
  · have hnotes : peerNotes peerA = [] ++ [.join (peerNode peerB)] := rfl
    rw [hnotes, present_append_singleton]
    simp [not_present_nil, Notification.Joins, peerNode, parseV7_peerB, hp, eq_comm]
  · have hnotes : peerNotes peerB = [] ++ [.join (peerNode peerA)] ++ [.leave (peerNode peerA)] ++
        [.join (peerNode peerA)] := rfl
    rw [hnotes, present_append_singleton, present_append_singleton, present_append_singleton]
    simp [not_present_nil, Notification.Joins, Notification.Leaves, peerNode, parseV7_peerA, hp,
      eq_comm]

theorem mem_of_joins_peerNotes {m p : UUID} {n : Notification} (hn : n ∈ peerNotes m)
    (hjoins : n.Joins plainWire p) : p ∈ ({peerA, peerB} : Finset UUID) := by
  have hcases : n = .join (peerNode peerA) ∨ n = .join (peerNode peerB) ∨
      n = .leave (peerNode peerA) := by
    unfold peerNotes at hn
    split at hn
    · simp_all
    · simp only [List.mem_cons, List.not_mem_nil, or_false] at hn
      tauto
  rcases hcases with rfl | rfl | rfl
  · cases parseV7_peerA.symm.trans hjoins.1
    simp
  · cases parseV7_peerB.symm.trans hjoins.1
    simp
  · exact hjoins.elim

theorem healthchecks_shared_two :
    ∑ m ∈ {peerA, peerB}, (((memberAfter plainWire m (peerNotes m)).runHealthChecks agentState
        [agentID] fun _ => []).map (·.nodeID)).count agentID = 1 := by
  have htargets : agentState.healthcheckTargets.keys = [agentID] := by decide +kernel
  refine (healthchecks_shared peers_separate (Finset.Subset.refl _) ⟨peerA, by simp⟩
    (fun m _ n hn p => mem_of_joins_peerNotes hn) (fun m hm p hp => present_peerNotes hm hp)
    agentState (by simp [htargets]) (fun _ => ⟨by rw [htargets], List.pairwise_singleton ..⟩)
    (fun _ _ => []) agentID).trans ?_
  decide +kernel

/-! ## Messages -/

theorem Heartbeat.unmarshalProto_of_unmarshalProto {pbh : Pb.Heartbeat} {h : Heartbeat}
    (hread : Heartbeat.unmarshalProto w pbh = .ok h) (order : TagOrder) :
    Heartbeat.unmarshalProto w (h.marshalProto order) = .ok h := by
  rw [Heartbeat.unmarshalProto] at hread
  split at hread
  · cases hread
  · obtain ⟨url, hurl, hread⟩ := Except.bind_eq_ok_iff.1 hread
    cases hread
    simp only [Heartbeat.marshalProto, Heartbeat.unmarshalProto,
      Wire.absolute_of_parseAbsolute hurl _ _]
    rfl
  · obtain ⟨info, hinfo, hread⟩ := Except.bind_eq_ok_iff.1 hread
    cases hread
    have hwf := RoutingInfo.wf_of_unmarshalProto hinfo
    simp only [Heartbeat.marshalProto, Heartbeat.unmarshalProto, Option.map_some, Option.getD_some,
      hwf.unmarshalProto_marshalProto order]
    rfl

/-- What a router has read, every router reads from the message of the first. -/
theorem NodeEvent.unmarshalProto_of_unmarshalProto {pbe : Pb.NodeEvent} {e : NodeEvent}
    (hread : NodeEvent.unmarshalProto w pbe = .ok e) (order : TagOrder) :
    NodeEvent.unmarshalProto w (e.marshalProto w order) = .ok e := by
  have hwf := NodeEvent.wf_of_unmarshalProto hread
  rw [NodeEvent.unmarshalProto] at hread
  split at hread
  · cases hread
  split at hread
  · cases hread
  obtain ⟨id, hid, hread⟩ := Except.bind_eq_ok_iff.1 hread
  obtain ⟨heartbeat, hdata, hread⟩ := Except.bind_eq_ok_iff.1 hread
  cases hread
  have hindex : ¬ pbe.eventIndex < 0 := not_lt.2 hwf.eventIndex
  have hparse := Wire.parseV7_uuidString (w := w) hwf.version
  cases heartbeat with
  | none =>
    simp only [NodeEvent.unmarshalProto, NodeEvent.marshalProto, NodeEvent.unmarshalData, hindex,
      hparse]
    rfl
  | some hb =>
    have hhb : ∃ pbh, Heartbeat.unmarshalProto w pbh = .ok hb := by
      rw [NodeEvent.unmarshalData] at hdata
      split at hdata
      · next pbh hpbh =>
        obtain ⟨hb', hread, hdata⟩ := Except.bind_eq_ok_iff.1 hdata
        cases hdata
        exact ⟨pbh, Except.mapError_eq_ok_iff.1 hread⟩
      · split at hdata <;> cases hdata
    obtain ⟨pbh, hpbh⟩ := hhb
    simp only [NodeEvent.unmarshalProto, NodeEvent.marshalProto, NodeEvent.unmarshalData, hindex,
      hparse, Option.map_some, Heartbeat.unmarshalProto_of_unmarshalProto hpbh order]
    rfl

/-- What a member adds by itself and broadcasts, an event that its handler has read or its check of
a node, is what every other member adds when it receives the message. -/
theorem handleMessage_message {input : RouterInput} (h : Received w input) (order : TagOrder) :
    handleMessage w (input.message w order) = .ok (some input) := by
  cases h with
  | nodeEvent hread =>
    rw [RouterInput.message, handleMessage, NodeEvent.unmarshalProto_of_unmarshalProto hread order]
    rfl
  | @healthcheck s id url hs hurl attempts =>
    obtain ⟨hversion, habsolute⟩ := hs.wf.healthcheckTarget hurl
    rw [RouterInput.message, handleMessage,
      (checkHealth_wf hversion habsolute attempts).unmarshalProto_marshalProto]
    rfl

theorem handleMessage_message_agent :
    handleMessage plainWire ((RouterInput.nodeEvent (nodeClient.heartbeat 10)).message plainWire
      sortedTags) = .ok (some (.nodeEvent (nodeClient.heartbeat 10))) :=
  handleMessage_message (.nodeEvent heartbeat_readable) sortedTags

end Router
