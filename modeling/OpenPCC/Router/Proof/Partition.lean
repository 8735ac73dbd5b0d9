import OpenPCC.Router.Proof.Query

/-!
# Every node is checked by one router

The index that the sweep reaches at a node does not depend on the router that asks, so the routers
share the nodes as they share the positions: if the positions that can be reached have routers that
are present, every node is checked by exactly one (`partitions_of_owns`). Every number that can be
reached is reached with some nodes, because any hash is that of a node, so the converse holds too
(`Partitions.exists_owns`). A router that comes and goes leaves the positions as they were
(`positions_removeRouter_addRouter`) but takes the entries of the map with it.
-/

namespace Router

open Go

theorem SortedNodes.eq {nodes : Targets} {nodeIDs nodeIDs' : List UUID}
    (h : SortedNodes nodes nodeIDs) (h' : SortedNodes nodes nodeIDs')
    (hdistinct : (nodes.keys.map nodePosition).Nodup) : nodeIDs = nodeIDs' := by
  refine (h.perm.trans h'.perm.symm).eq_of_pairwise (fun id id' hid hid' hle hle' => ?_) h.sorted
    h'.sorted
  exact List.inj_on_of_nodup_map hdistinct (h.perm.subset hid) (h'.perm.subset hid')
    (Nat.le_antisymm hle hle')

/-- The nodes with the given ids. -/
def targets (nodeIDs : List UUID) (hnodup : nodeIDs.Nodup) : Targets where
  entries := nodeIDs.map fun id => ⟨id, []⟩
  nodupKeys := by
    rw [List.NodupKeys, List.keys, List.map_map]
    exact (List.map_id'' (fun _ => rfl) nodeIDs).symm ▸ hnodup

theorem keys_targets {nodeIDs : List UUID} (hnodup : nodeIDs.Nodup) :
    (targets nodeIDs hnodup).keys = nodeIDs := by
  rw [AList.keys, List.keys, targets, List.map_map]
  exact List.map_id'' (fun _ => rfl) nodeIDs

namespace Ring

variable {r : Ring} {routerID : UUID}

/-! ## Sweeps over distinct hashes -/

theorem mem_reachable_iff (hne : r.positions ≠ []) {i : Nat} :
    i ∈ r.Reachable ↔ ∃ points ≠ [], points.Pairwise (· < ·) ∧ (∀ x ∈ points, x < 2 ^ 32) ∧
      Sweep.passed r.positions points = i := by
  rw [Sweep.exists_passed_iff hne]
  simp only [Sweep.rank_lt_length_iff]
  rfl

theorem passed_mem_reachable (hne : r.positions ≠ []) {nodes : Targets} {nodeIDs : List UUID}
    (hnodes : SortedNodes nodes nodeIDs) (hdistinct : (nodes.keys.map nodePosition).Nodup)
    {k : Nat} (hk : k < nodeIDs.length) :
    Sweep.passed r.positions ((nodeIDs.take (k + 1)).map nodePosition) ∈ r.Reachable := by
  have hnodup : ((nodeIDs.take (k + 1)).map nodePosition).Nodup :=
    ((hnodes.perm.map nodePosition).nodup_iff.2 hdistinct).sublist
      ((List.take_sublist _ _).map nodePosition)
  refine (mem_reachable_iff hne).2 ⟨_, ?_, ?_, fun x hx => ?_, rfl⟩
  · rw [← List.length_pos_iff, List.length_map, List.length_take]
    omega
  · exact ((hnodes.pairwise_take (k + 1)).and hnodup).imp fun hand => lt_of_le_of_ne hand.1 hand.2
  · obtain ⟨id, -, rfl⟩ := List.mem_map.1 hx
    exact checksumIEEE_lt _

/-! ## Rings of present routers -/

theorem partitions_of_owns (h : r.Sorted) (hne : r.positions ≠ [])
    (howns : ∀ i ∈ r.Reachable, ∃ id ∈ r.routers, r.Owns id i) : r.Partitions := by
  intro nodes order hdistinct horder
  refine ⟨fun id _ id' _ hid => ?_, fun nodeID url => ?_⟩
  · -- both routers would have the position at which the sweep stops
    intro nodeID hmem hmem'
    rw [← AList.mem_keys, ← AList.lookup_isSome, Option.isSome_iff_exists] at hmem hmem'
    obtain ⟨url, hurl⟩ := hmem
    obtain ⟨url', hurl'⟩ := hmem'
    rw [← (horder id).eq (horder id') hdistinct] at hurl'
    obtain ⟨-, k, hk, howns⟩ := (lookup_query h hne (horder id) nodeID url).1 hurl
    obtain ⟨-, k', hk', howns'⟩ := (lookup_query h hne (horder id) nodeID url').1 hurl'
    obtain rfl := (horder id).index_eq hk hk'
    exact hid (howns.unique howns')
  · constructor
    · intro hurl
      obtain ⟨k, hk⟩ := (horder 0).exists_index hurl
      have hlt : k < (order 0).length := (List.getElem?_eq_some_iff.1 hk).1
      obtain ⟨id, hid, howns⟩ := howns _ (passed_mem_reachable hne (horder 0) hdistinct hlt)
      refine ⟨id, hid, ?_⟩
      rw [(horder id).eq (horder 0) hdistinct]
      exact (lookup_query h hne (horder 0) nodeID url).2 ⟨hurl, k, hk, howns⟩
    · rintro ⟨id, -, hquery⟩
      exact ((lookup_query h hne (horder id) nodeID url).1 hquery).1

/-! ## A node at every point of a sweep -/

theorem not_partitions_of_unchecked (nodeID : UUID)
    (h : ∀ id ∈ r.routers,
      (r.queryHealthcheckURLs id (AList.singleton nodeID []) [nodeID]).lookup nodeID = none) :
    ¬ r.Partitions := by
  intro hpartitions
  have hnodes := sortedNodes_singleton nodeID
  have hlookup : (AList.singleton nodeID [] : Targets).lookup nodeID = some [] :=
    List.dlookup_cons_eq ..
  obtain ⟨-, hunion⟩ := hpartitions (AList.singleton nodeID []) (fun _ => [nodeID])
    (List.nodup_singleton _) fun _ => hnodes
  obtain ⟨id, hid, hurl⟩ := (hunion nodeID []).1 hlookup
  cases (h id hid).symm.trans hurl

theorem Partitions.positions_ne_nil (hpartitions : r.Partitions) : r.positions ≠ [] := by
  intro hempty
  refine not_partitions_of_unchecked 0 (fun id _ => ?_) hpartitions
  rw [queryHealthcheckURLs, if_pos (.inl (List.length_eq_zero_iff.2 hempty))]
  rfl

theorem Partitions.exists_owns (h : r.Sorted) (hpartitions : r.Partitions) {i : Nat}
    (hi : i ∈ r.Reachable) : ∃ id ∈ r.routers, r.Owns id i := by
  have hne := hpartitions.positions_ne_nil
  obtain ⟨points, hpoints, hstrict, hlt, rfl⟩ := (mem_reachable_iff hne).1 hi
  obtain ⟨nodeIDs, rfl⟩ : points ∈ Set.range (List.map nodePosition) := by
    rw [Set.range_list_map]
    exact fun x hx => exists_nodePosition (hlt x hx)
  have hnodup : (nodeIDs.map nodePosition).Nodup := hstrict.imp Nat.ne_of_lt
  have hids : nodeIDs.Nodup := hnodup.of_map nodePosition
  have hkeys := keys_targets hids
  have hsorted : SortedNodes (targets nodeIDs hids) nodeIDs := by
    refine ⟨?_, (List.pairwise_map.1 hstrict).imp Nat.le_of_lt⟩
    rw [hkeys]
  have hlen : 0 < nodeIDs.length := by
    rwa [ne_eq, List.map_eq_nil_iff, ← ne_eq, ← List.length_pos_iff] at hpoints
  -- the last node is checked by a router, which has the position the sweep has reached
  have hlast := List.getElem?_eq_getElem (Nat.sub_one_lt_of_lt hlen)
  obtain ⟨url, hurl⟩ := hsorted.exists_url hlast
  obtain ⟨-, hunion⟩ := hpartitions (targets nodeIDs hids) (fun _ => nodeIDs) (by rwa [hkeys])
    (fun _ => hsorted)
  obtain ⟨id, hid, hquery⟩ := (hunion _ url).1 hurl
  obtain ⟨-, k, hk, howns⟩ := (lookup_query h hne hsorted _ url).1 hquery
  obtain rfl := hsorted.index_eq hlast hk
  rw [Nat.sub_add_cancel hlen, List.take_length] at howns
  exact ⟨id, hid, howns⟩

/-- If no position stands there twice, every one can be reached. -/
theorem mem_reachable_of_nodup (h : r.Sorted) (hnodup : r.positions.Nodup) {i : Nat}
    (hi : i < r.positions.length) : i ∈ r.Reachable := by
  have hstrict : r.positions.Pairwise (· < ·) :=
    (h.pairwise.and hnodup).imp fun hand => lt_of_le_of_ne hand.1 hand.2
  have hne : r.positions ≠ [] := List.ne_nil_of_length_pos (by omega)
  have htake : (r.positions.take (i + 1)).Sublist r.positions := List.take_sublist ..
  refine (mem_reachable_iff hne).2 ⟨r.positions.take (i + 1), ?_, hstrict.sublist htake,
    fun x hx => h.lt x (htake.subset hx), Sweep.passed_take hstrict hi⟩
  rw [← List.length_pos_iff, List.length_take]
  omega

/-- After any calls the routers share all nodes if and only if there are positions and those that a
query can reach have routers that are present. If no position stands there twice, that is all of
them. So it is after calls in which no router is added that has a virtual position in common with
one that is present. -/
theorem partitions_iff (acts : List Act) :
    let r := acts.foldl step newRing
    (r.Partitions ↔ r.positions ≠ [] ∧ ∀ i ∈ r.Reachable, ∃ id ∈ r.routers, r.Owns id i) ∧
    (r.positions.Nodup →
      (r.Partitions ↔ r.positions ≠ [] ∧ ∀ pos ∈ r.positions, r.routerAt pos ∈ r.routers)) ∧
    (Trace.Along step NoCollision newRing acts → r.routers.Nonempty → r.Partitions) := by
  intro r
  have h : r.Sorted := sorted_run acts
  have hiff : r.Partitions ↔ r.positions ≠ [] ∧ ∀ i ∈ r.Reachable, ∃ id ∈ r.routers, r.Owns id i :=
    ⟨fun hp => ⟨hp.positions_ne_nil, fun _ => hp.exists_owns h⟩,
      fun hand => partitions_of_owns h hand.1 hand.2⟩
  refine ⟨hiff, fun hnodup => ?_, ?_⟩
  · rw [hiff]
    refine and_congr_right fun hne => ?_
    constructor
    · intro howns pos hpos
      obtain ⟨i, hi, rfl⟩ := List.mem_iff_getElem.1 hpos
      obtain ⟨id, hid, howns⟩ := howns i (mem_reachable_of_nodup h hnodup hi)
      rwa [(owns_iff_of_lt hi).1 howns]
    · exact fun hrouters i _ => exists_owns hne hrouters i
  · rintro hrun ⟨id, hid⟩
    have hclean : r.Clean := clean_of_run hrun
    have hpos : virtualPosition id 0 ∈ virtualPositions id :=
      List.mem_map_of_mem (List.mem_range.2 (by decide))
    have hne : r.positions ≠ [] := List.ne_nil_of_mem ((hclean.mem_positions _).2 ⟨id, hid, hpos⟩)
    exact hiff.2 ⟨hne, fun i _ => exists_owns hne (fun _ => hclean.routerAt_mem) i⟩

theorem partitions_iff_two :
    let acts := [Act.add exampleRouter, Act.add nextRouter]
    let r := acts.foldl step newRing
    r.routers = {exampleRouter, nextRouter} ∧ Trace.Along step NoCollision newRing acts ∧
      r.Partitions := by
  intro acts r
  have hrouters : r.routers = {exampleRouter, nextRouter} :=
    routers_fresh [exampleRouter, nextRouter]
  have hdisjoint : ∀ pos ∈ virtualPositions nextRouter, pos ∉ virtualPositions exampleRouter := by
    decide +kernel
  have hrun : Trace.Along step NoCollision newRing acts := by
    refine ⟨fun _ id hid => absurd hid (Finset.notMem_empty id), fun _ id hid => ?_, trivial⟩
    obtain rfl : id = exampleRouter := by simpa [step, routers_addRouter, newRing] using hid
    exact hdisjoint
  have hnonempty : r.routers.Nonempty := hrouters ▸ Finset.insert_nonempty ..
  exact ⟨hrouters, hrun, (partitions_iff acts).2.2 hrun hnonempty⟩

/-! ## A router that comes and goes -/

theorem count_removePositions (hzero : routerID ≠ 0) (m : Nat → Option UUID) (positions : List Nat)
    (pos : Nat) : (removePositions routerID m positions).2.count pos =
      positions.count pos - if m pos = some routerID then 1 else 0 := by
  induction positions generalizing m with
  | nil => simp [removePositions]
  | cons p positions ih =>
    have hmap : (m p).getD 0 = routerID ↔ m p = some routerID := by
      cases hp : m p with
      | none => simpa using hzero.symm
      | some id => simp
    rw [removePositions]
    by_cases hp : m p = some routerID
    · rw [if_neg (not_not.2 (hmap.2 hp)), ih]
      by_cases hpos : pos = p
      · subst hpos
        simp [hp]
      · simp [hpos, Ne.symm hpos]
    · rw [if_pos (mt hmap.1 hp)]
      simp only [List.count_cons, ih]
      by_cases hpos : pos = p
      · subst hpos
        simp [hp]
      · simp [Ne.symm hpos]

theorem positions_removeRouter_addRouter (h : r.Sorted) (hnew : routerID ∉ r.routers)
    (hzero : routerID ≠ 0) (hmap : ∀ pos, r.posToRouter pos ≠ some routerID) :
    ((r.addRouter routerID).removeRouter routerID).positions = r.positions := by
  have hadded : routerID ∈ (r.addRouter routerID).routers := by
    rw [routers_addRouter]
    exact Finset.mem_insert_self ..
  have hpositions : ((r.addRouter routerID).removeRouter routerID).positions =
      (removePositions routerID (r.addRouter routerID).posToRouter
        (r.addRouter routerID).positions).2 := by
    rw [removeRouter, if_neg (not_not.2 hadded)]
  refine (List.perm_iff_count.2 fun pos => ?_).eq_of_pairwise (fun _ _ _ _ => Nat.le_antisymm)
    ((h.step (.add routerID)).step (.remove routerID)).pairwise h.pairwise
  rw [hpositions, count_removePositions hzero, positions_addRouter hnew,
    (List.perm_insertionSort _ _).count_eq, List.count_append, posToRouter_addRouter hnew]
  by_cases hpos : pos ∈ virtualPositions routerID
  · simp [hpos, List.count_eq_one_of_mem (nodup_virtualPositions routerID) hpos]
  · simp [hpos, hmap pos, List.count_eq_zero_of_not_mem hpos]

/-- If the first position has no router, the nodes below it are checked by nobody. -/
theorem unchecked_of_unmapped (h : r.Sorted) (hzero : 0 ∉ r.routers) {pos : Nat}
    (hpos : pos ∈ r.positions) (hleast : ∀ p ∈ r.positions, pos ≤ p)
    (hnone : r.posToRouter pos = none) {nodeID : UUID} (hnode : nodePosition nodeID ≤ pos) :
    ∀ id ∈ r.routers,
      (r.queryHealthcheckURLs id (AList.singleton nodeID []) [nodeID]).lookup nodeID = none := by
  intro id hid
  have hne : r.positions ≠ [] := List.ne_nil_of_mem hpos
  have hnodes := sortedNodes_singleton nodeID
  -- the sweep stays at the first position
  have hrank : ∀ x ≤ pos, Sweep.rank r.positions x = 0 := by
    intro x hx
    rw [← Nat.le_zero, ← not_lt, Sweep.rank_pos_iff]
    rintro ⟨p, hp, hlt⟩
    exact absurd (hx.trans (hleast p hp)) (not_le.2 hlt)
  have hfirst : r.positions[0]? = some pos := by
    rw [← hrank pos le_rfl]
    exact Sweep.getElem?_rank h.pairwise hpos
  have hpassed : Sweep.passed r.positions [nodePosition nodeID] = 0 := by
    rw [← Nat.le_zero, ← hrank _ hnode]
    refine Sweep.passed_le_rank (fun x hx => le_of_eq (List.mem_singleton.1 hx)) ?_
    rw [hrank _ hnode]
    exact List.length_pos_iff.2 hne
  rw [Option.eq_none_iff_forall_ne_some]
  intro url hurl
  obtain ⟨-, k, hk, howns⟩ := (lookup_query h hne hnodes nodeID url).1 hurl
  obtain rfl : k = 0 := Nat.lt_one_iff.1 (List.getElem?_eq_some_iff.1 hk).1
  rw [List.take_succ_cons, List.take_zero, List.map_singleton, hpassed] at howns
  obtain ⟨p, hp, hrouter⟩ := howns
  rw [Nat.zero_mod, hfirst] at hp
  cases hp
  rw [routerAt, hnone, Option.getD_none] at hrouter
  exact hzero (hrouter ▸ hid)

theorem positions_after_overlap {id id' : UUID} (hid' : id' ≠ 0) (hne : id' ≠ id) :
    (((fresh [id]).addRouter id').removeRouter id').positions = (fresh [id]).positions := by
  have hnew : id' ∉ (fresh [id]).routers := by
    rw [routers_fresh, List.mem_toFinset, List.mem_singleton]
    exact hne
  refine positions_removeRouter_addRouter (sorted_run [.add id]) hnew hid' fun pos hmap => ?_
  exact hnew (((clean_fresh_singleton id).posToRouter pos id').1 hmap).1

theorem mem_positions_fresh_singleton {id : UUID} {pos : Nat} :
    pos ∈ (fresh [id]).positions ↔ pos ∈ virtualPositions id := by
  rw [(clean_fresh_singleton id).mem_positions, routers_fresh]
  simp

/-- A ring with the positions of its only router, of which the first one has lost its entry in the
map. -/
theorem unchecked_of_lost {id nodeID : UUID} (h : r.Sorted) (hid : id ≠ 0)
    (hrouters : r.routers = {id}) (hpositions : r.positions = (fresh [id]).positions) {pos : Nat}
    (hpos : pos ∈ virtualPositions id) (hleast : ∀ p ∈ virtualPositions id, pos ≤ p)
    (hnone : r.posToRouter pos = none) (hnode : nodePosition nodeID ≤ pos) :
    r.positions.Nodup ∧ r.positions ≠ [] ∧
      (∀ id ∈ r.routers,
        (r.queryHealthcheckURLs id (AList.singleton nodeID []) [nodeID]).lookup nodeID = none) ∧
      ¬ r.Partitions := by
  have hmem : ∀ p, p ∈ r.positions ↔ p ∈ virtualPositions id := by
    intro p
    rw [hpositions]
    exact mem_positions_fresh_singleton
  have hnodup : r.positions.Nodup := by
    rw [hpositions]
    exact (clean_fresh_singleton id).sorted.nodup
  have hzero : 0 ∉ r.routers := by
    rw [hrouters, Finset.mem_singleton]
    exact hid.symm
  have hfirst : ∀ p ∈ r.positions, pos ≤ p := fun p hp => hleast p ((hmem p).1 hp)
  have hunchecked := unchecked_of_unmapped h hzero ((hmem pos).2 hpos) hfirst hnone hnode
  exact ⟨hnodup, List.ne_nil_of_mem ((hmem pos).2 hpos), hunchecked,
    not_partitions_of_unchecked nodeID hunchecked⟩

theorem unchecked_of_overlap {id id' nodeID : UUID} (hid : id ≠ 0) (hid' : id' ≠ 0) (hne : id' ≠ id)
    {pos : Nat} (hpos : pos ∈ virtualPositions id) (hpos' : pos ∈ virtualPositions id')
    (hleast : ∀ p ∈ virtualPositions id, pos ≤ p) (hnode : nodePosition nodeID ≤ pos) :
    let r := [Act.add id, .add id', .remove id'].foldl step newRing
    r.routers = {id} ∧ r.positions = (fresh [id]).positions ∧ r.positions.Nodup ∧
      r.positions ≠ [] ∧
      (∀ id ∈ r.routers,
        (r.queryHealthcheckURLs id (AList.singleton nodeID []) [nodeID]).lookup nodeID = none) ∧
      ¬ r.Partitions := by
  intro r
  have hsorted : r.Sorted := sorted_run _
  obtain ⟨hrouters, hnone, -, -⟩ := lost_position hne hpos hpos'
  have hpositions : r.positions = (fresh [id]).positions := positions_after_overlap hid' hne
  exact ⟨hrouters, hpositions,
    unchecked_of_lost hsorted hid hrouters hpositions hpos hleast hnone hnode⟩

def overlappingRouter : UUID := 0x400080000000ab918dbd

def lowNode : UUID := 0x1000000000004000800000000000003a

/-- A router came and went that shares 72 positions with the one that stayed, among them the first:
the ring has the distinct positions of its router, but a node is checked by nobody. -/
theorem node_unchecked_after_overlap :
    let r := [Act.add exampleRouter, .add overlappingRouter, .remove overlappingRouter].foldl step
      newRing
    r.routers = {exampleRouter} ∧ r.positions = (fresh [exampleRouter]).positions ∧
      r.positions.Nodup ∧ r.positions ≠ [] ∧
      (∀ id ∈ r.routers,
        (r.queryHealthcheckURLs id (AList.singleton lowNode []) [lowNode]).lookup lowNode = none) ∧
      ¬ r.Partitions := by
  have hpos : virtualPosition exampleRouter 18 ∈ virtualPositions exampleRouter :=
    List.mem_map_of_mem (List.mem_range.2 (by decide))
  have hpos' : virtualPosition overlappingRouter 82 ∈ virtualPositions overlappingRouter :=
    List.mem_map_of_mem (List.mem_range.2 (by decide))
  have hshared : virtualPosition exampleRouter 18 = virtualPosition overlappingRouter 82 := by
    decide +kernel
  have hleast : ∀ p ∈ virtualPositions exampleRouter, virtualPosition exampleRouter 18 ≤ p := by
    decide +kernel
  have hnode : nodePosition lowNode ≤ virtualPosition exampleRouter 18 := by
    decide +kernel
  rw [← hshared] at hpos'
  exact unchecked_of_overlap (by decide) (by decide) (by decide) hpos hpos' hleast hnode

end Ring

end Router
