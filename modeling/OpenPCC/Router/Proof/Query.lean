import Mathlib.Order.Bounds.Basic
import OpenPCC.Lib.Sweep
import OpenPCC.Router.Proof.Ring

/-!
# Queries of the ring

The sweep of `queryHealthcheckURLs` is a `Sweep` over the positions (`foldl_nextIndex`), so the
index of a node is the number of positions that were passed, one at most for each node. It is the
node's own only if the sweep can keep up.
-/

namespace Router

open Go

/-! ## Positions of nodes -/

theorem exists_bytes (b₀ b₁ b₂ b₃ : UInt8) :
    ∃ id : UUID, id.bytes = List.replicate 12 0 ++ [b₀, b₁, b₂, b₃] := by
  have h₀ := b₀.toNat_lt
  have h₁ := b₁.toNat_lt
  have h₂ := b₂.toNat_lt
  have h₃ := b₃.toNat_lt
  refine ⟨BitVec.ofNat 128
    (b₀.toNat * 2 ^ 24 + b₁.toNat * 2 ^ 16 + b₂.toNat * 2 ^ 8 + b₃.toNat), ?_⟩
  have hbyte : ∀ {n : Nat} {b : UInt8}, n % 2 ^ 8 = b.toNat → UInt8.ofNat n = b := by
    intro n b hn
    rw [← UInt8.toNat_inj, UInt8.toNat_ofNat', hn]
  have hrange : (List.range 16).reverse =
      [15, 14, 13, 12, 11, 10, 9, 8, 7, 6, 5, 4, 3, 2, 1, 0] := by
    decide
  rw [UUID.bytes, hrange, BitVec.toNat_ofNat, Nat.mod_eq_of_lt (by omega)]
  simp only [List.map_cons, List.map_nil, Nat.shiftRight_eq_div_pow]
  simp only [List.replicate, List.cons_append, List.nil_append]
  repeat' refine List.cons_eq_cons.2 ⟨hbyte ?_, ?_⟩
  all_goals simp
  all_goals omega

theorem exists_nodePosition {pos : Nat} (hpos : pos < 2 ^ 32) : ∃ id, nodePosition id = pos := by
  have hxor : pos ^^^ 0xFFFFFFFF < 2 ^ 32 := Nat.xor_lt_two_pow hpos (by decide)
  have hzeros : (List.replicate 12 0).foldl crc32Byte 0xFFFFFFFF < 2 ^ 32 :=
    foldl_crc32Byte_lt (by decide) _
  obtain ⟨w, -, hw⟩ := exists_foldl_crc32Byte hzeros hxor
  obtain ⟨id, hid⟩ := exists_bytes (UInt8.ofNat w) (UInt8.ofNat (w / 2 ^ 8))
    (UInt8.ofNat (w / 2 ^ 8 / 2 ^ 8)) (UInt8.ofNat (w / 2 ^ 8 / 2 ^ 8 / 2 ^ 8))
  refine ⟨id, ?_⟩
  have hlast : littleEndian 4 w = [UInt8.ofNat w, UInt8.ofNat (w / 2 ^ 8),
      UInt8.ofNat (w / 2 ^ 8 / 2 ^ 8), UInt8.ofNat (w / 2 ^ 8 / 2 ^ 8 / 2 ^ 8)] := rfl
  rw [nodePosition, checksumIEEE, hid, List.foldl_append, ← hlast, hw, Nat.xor_assoc, Nat.xor_self,
    Nat.xor_zero]

/-! ## Sorted nodes -/

theorem sortedNodes_singleton (id : UUID) : SortedNodes (AList.singleton id []) [id] :=
  ⟨.refl _, List.pairwise_singleton ..⟩

theorem SortedNodes.exists_url {nodes : Targets} {nodeIDs : List UUID}
    (h : SortedNodes nodes nodeIDs) {k : Nat} {id : UUID} (hk : nodeIDs[k]? = some id) :
    ∃ url, nodes.lookup id = some url := by
  have hkey : id ∈ nodes := h.perm.subset (List.mem_of_getElem? hk)
  exact Option.isSome_iff_exists.1 (AList.lookup_isSome.2 hkey)

theorem SortedNodes.exists_index {nodes : Targets} {nodeIDs : List UUID}
    (h : SortedNodes nodes nodeIDs) {id : UUID} {url : Bytes} (hurl : nodes.lookup id = some url) :
    ∃ k : Nat, nodeIDs[k]? = some id := by
  have hkey : id ∈ nodes := by
    rw [← AList.lookup_isSome, hurl]
    rfl
  exact List.mem_iff_getElem?.1 (h.perm.mem_iff.2 hkey)

theorem SortedNodes.index_eq {nodes : Targets} {nodeIDs : List UUID}
    (h : SortedNodes nodes nodeIDs) {k k' : Nat} {id : UUID} (hk : nodeIDs[k]? = some id)
    (hk' : nodeIDs[k']? = some id) : k = k' := by
  have hnodup : nodeIDs.Nodup := h.perm.nodup_iff.2 nodes.keys_nodup
  exact (List.getElem?_inj (List.getElem?_eq_some_iff.1 hk).1 hnodup).1 (hk.trans hk'.symm)

theorem SortedNodes.pairwise_take {nodes : Targets} {nodeIDs : List UUID}
    (h : SortedNodes nodes nodeIDs) (k : Nat) :
    ((nodeIDs.take k).map nodePosition).Pairwise (· ≤ ·) := by
  rw [List.pairwise_map]
  exact h.sorted.sublist (List.take_sublist ..)

theorem map_take_succ {nodeIDs : List UUID} {k : Nat} {id : UUID} (hk : nodeIDs[k]? = some id) :
    (nodeIDs.take (k + 1)).map nodePosition =
      (nodeIDs.take k).map nodePosition ++ [nodePosition id] := by
  rw [List.take_add_one, hk, Option.toList_some, List.map_append, List.map_singleton]

theorem SortedNodes.le_of_take {nodes : Targets} {nodeIDs : List UUID}
    (h : SortedNodes nodes nodeIDs) {k : Nat} {id : UUID} (hk : nodeIDs[k]? = some id) :
    ∀ x ∈ (nodeIDs.take (k + 1)).map nodePosition, x ≤ nodePosition id := by
  have hpairwise := h.pairwise_take (k + 1)
  rw [map_take_succ hk] at hpairwise ⊢
  intro x hx
  obtain hx | hx := List.mem_append.1 hx
  · exact (List.pairwise_append.1 hpairwise).2.2 x hx _ (List.mem_singleton_self _)
  · exact le_of_eq (List.mem_singleton.1 hx)

namespace Ring

variable {r : Ring} {routerID : UUID}

/-! ## Sorted positions -/

theorem removePositions_sublist (routerID : UUID) (m : Nat → Option UUID) (positions : List Nat) :
    (removePositions routerID m positions).2.Sublist positions := by
  induction positions generalizing m with
  | nil => exact List.Sublist.slnil
  | cons p positions ih =>
    rw [removePositions]
    split
    · exact (ih m).cons_cons p
    · exact (ih _).cons p

/-- Every position is a checksum, and they are sorted. -/
structure Sorted (r : Ring) : Prop where
  pairwise : r.positions.Pairwise (· ≤ ·)
  lt : ∀ pos ∈ r.positions, pos < 2 ^ 32

theorem Sorted.step (h : r.Sorted) (act : Act) : (r.step act).Sorted := by
  cases act with
  | add routerID =>
    by_cases hmem : routerID ∈ r.routers
    · rw [Ring.step, addRouter_of_mem hmem]
      exact h
    · have hpositions := positions_addRouter hmem
      refine ⟨?_, fun pos hpos => ?_⟩
      · rw [Ring.step, hpositions]
        exact List.sortedLE_insertionSort.pairwise
      · rw [Ring.step, hpositions, List.mem_insertionSort, List.mem_append] at hpos
        obtain hpos | hpos := hpos
        · exact h.lt pos hpos
        · obtain ⟨i, -, rfl⟩ := List.mem_map.1 hpos
          exact checksumIEEE_lt _
  | remove routerID =>
    rw [Ring.step, removeRouter]
    split
    · exact h
    · have hsub := removePositions_sublist routerID r.posToRouter r.positions
      exact ⟨h.pairwise.sublist hsub, fun pos hpos => h.lt pos (hsub.subset hpos)⟩

theorem sorted_run (acts : List Act) : (acts.foldl step newRing).Sorted := by
  have hstep : ∀ r act, Sorted r → True → Sorted (Ring.step r act) := fun _ act hr _ => hr.step act
  have hnew : newRing.Sorted := ⟨List.Pairwise.nil, fun pos hpos => absurd hpos List.not_mem_nil⟩
  exact (Trace.always_of_step hstep hnew Trace.along_true).last

/-! ## The sweep -/

theorem nextIndex_eq (h : r.Sorted) {i : Nat} (hi : i < r.positions.length) (x : Nat) :
    r.nextIndex i x = Sweep.advance r.positions i x := by
  have hlt := Sweep.getElem_lt_iff h.pairwise hi (x := x)
  rw [nextIndex, Sweep.advance, List.getD_eq_getElem _ _ hi]
  simp only [hi, true_and, hlt]
  split
  · obtain hend | hend := Nat.lt_or_ge (i + 1) r.positions.length
    · rw [if_neg (by omega), Nat.mod_eq_of_lt hend]
    · have heq : i + 1 = r.positions.length := by omega
      rw [if_pos heq, heq, Nat.mod_self]
  · rw [if_neg (by omega)]

theorem foldl_nextIndex (h : r.Sorted) (hne : r.positions ≠ []) {points : List Nat}
    (hpoints : points.Pairwise (· ≤ ·)) :
    points.foldl r.nextIndex 0 = Sweep.passed r.positions points % r.positions.length := by
  have hpos : 0 < r.positions.length := List.length_pos_iff.2 hne
  rw [← Sweep.foldl_advance hpoints hne]
  induction points using List.reverseRecOn with
  | nil => rfl
  | append_singleton points x ih =>
    have hprefix := (List.pairwise_append.1 hpoints).1
    have hlt : points.foldl (Sweep.advance r.positions) 0 < r.positions.length := by
      rw [Sweep.foldl_advance hprefix hne]
      exact Nat.mod_lt _ hpos
    rw [List.foldl_append, List.foldl_append, ih hprefix]
    exact nextIndex_eq h hlt x

/-! ## Single queries -/

/-- The nodes that the loop returns. -/
def queried (r : Ring) (routerID : UUID) : Nat → List UUID → List UUID
  | _, [] => []
  | posIndex, nodeID :: nodeIDs =>
    let posIndex := r.nextIndex posIndex (nodePosition nodeID)
    if r.routerAt (r.positions.getD posIndex 0) = routerID then
      nodeID :: queried r routerID posIndex nodeIDs
    else queried r routerID posIndex nodeIDs

theorem lookup_queryLoop (nodes out : Targets) (posIndex : Nat) (nodeIDs : List UUID) (id : UUID) :
    (r.queryLoop routerID nodes posIndex out nodeIDs).lookup id =
      if id ∈ r.queried routerID posIndex nodeIDs then some ((nodes.lookup id).getD [])
      else out.lookup id := by
  induction nodeIDs generalizing posIndex out with
  | nil => simp [queryLoop, queried]
  | cons nodeID nodeIDs ih =>
    rw [queryLoop, ih, queried]
    by_cases hrest : id ∈ r.queried routerID (r.nextIndex posIndex (nodePosition nodeID)) nodeIDs
    · rw [if_pos hrest]
      split <;> simp [hrest]
    · rw [if_neg hrest]
      by_cases hid : id = nodeID
      · subst hid
        split <;> simp [hrest]
      · split <;> simp [hrest, hid, AList.lookup_insert_ne hid]

/-- The node `k` is returned if the router has the position of the index after the first `k + 1`
nodes. -/
theorem mem_queried {posIndex : Nat} {nodeIDs : List UUID} {id : UUID} :
    id ∈ r.queried routerID posIndex nodeIDs ↔ ∃ k, nodeIDs[k]? = some id ∧
      r.routerAt (r.positions.getD
        (((nodeIDs.take (k + 1)).map nodePosition).foldl r.nextIndex posIndex) 0) = routerID := by
  induction nodeIDs generalizing posIndex with
  | nil => simp [queried]
  | cons nodeID nodeIDs ih =>
    rw [← Nat.or_exists_add_one]
    have hhead : ((nodeID :: nodeIDs).take (0 + 1)).map nodePosition = [nodePosition nodeID] := by
      simp
    have htail : ∀ k, ((nodeID :: nodeIDs).take (k + 1 + 1)).map nodePosition =
        nodePosition nodeID :: (nodeIDs.take (k + 1)).map nodePosition := by
      simp
    simp only [hhead, htail, List.foldl_cons, List.foldl_nil, List.getElem?_cons_zero,
      List.getElem?_cons_succ, Option.some.injEq, ← ih, queried]
    split
    · next howns => rw [List.mem_cons, and_iff_left howns, eq_comm]
    · next howns => simp only [howns, and_false, false_or]

/-! ## Positions by number -/

theorem owns_iff_of_lt {i : Nat} (hi : i < r.positions.length) :
    r.Owns routerID i ↔ r.routerAt r.positions[i] = routerID := by
  rw [Owns, Nat.mod_eq_of_lt hi, List.getElem?_eq_getElem hi]
  simp

theorem owns_mod {i : Nat} : r.Owns routerID (i % r.positions.length) ↔ r.Owns routerID i := by
  rw [Owns, Owns, Nat.mod_mod]

theorem routerAt_getD_iff (hne : r.positions ≠ []) (i : Nat) :
    r.routerAt (r.positions.getD (i % r.positions.length) 0) = routerID ↔ r.Owns routerID i := by
  have hlt : i % r.positions.length < r.positions.length :=
    Nat.mod_lt _ (List.length_pos_iff.2 hne)
  rw [← owns_mod, owns_iff_of_lt hlt, List.getD_eq_getElem _ _ hlt]

theorem assigned_iff_owns (h : r.Sorted) (id : UUID) :
    r.Assigned routerID id ↔ r.Owns routerID (Sweep.rank r.positions (nodePosition id)) := by
  have hsuccessor : r.successor (nodePosition id) =
      r.positions[Sweep.rank r.positions (nodePosition id) % r.positions.length]? := by
    rw [successor, Sweep.find?_eq_getElem?_rank h.pairwise]
    obtain hlt | hge := Nat.lt_or_ge (Sweep.rank r.positions (nodePosition id)) r.positions.length
    · rw [Nat.mod_eq_of_lt hlt, List.getElem?_eq_getElem hlt, Option.some_or]
    · have heq := Nat.le_antisymm (Sweep.rank_le_length (nodePosition id)) hge
      rw [heq, Nat.mod_self, List.getElem?_eq_none le_rfl, Option.none_or, List.head?_eq_getElem?]
  rw [Assigned, Owns, hsuccessor]

theorem lookup_query (h : r.Sorted) (hne : r.positions ≠ []) {nodes : Targets}
    {nodeIDs : List UUID} (hnodes : SortedNodes nodes nodeIDs) (id : UUID) (url : Bytes) :
    (r.queryHealthcheckURLs routerID nodes nodeIDs).lookup id = some url ↔
      nodes.lookup id = some url ∧ ∃ k, nodeIDs[k]? = some id ∧
        r.Owns routerID (Sweep.passed r.positions ((nodeIDs.take (k + 1)).map nodePosition)) := by
  have hmem : id ∈ r.queried routerID 0 nodeIDs ↔ ∃ k, nodeIDs[k]? = some id ∧
      r.Owns routerID (Sweep.passed r.positions ((nodeIDs.take (k + 1)).map nodePosition)) := by
    rw [mem_queried]
    refine exists_congr fun k => and_congr_right fun _ => ?_
    rw [foldl_nextIndex h hne (hnodes.pairwise_take (k + 1)), routerAt_getD_iff hne]
  rw [queryHealthcheckURLs]
  by_cases hempty : nodes.keys.length = 0
  · have hnone : nodes.lookup id = none := by
      rw [AList.lookup_eq_none, AList.mem_keys, List.eq_nil_of_length_eq_zero hempty]
      exact List.not_mem_nil
    rw [if_pos (.inr hempty), hnone]
    simp
  · have hlen : r.positions.length ≠ 0 := fun hlen => hne (List.eq_nil_of_length_eq_zero hlen)
    rw [if_neg (not_or.2 ⟨hlen, hempty⟩), lookup_queryLoop, ← hmem]
    split
    · next hqueried =>
      obtain ⟨k, hk, -⟩ := hmem.1 hqueried
      obtain ⟨url', hurl⟩ := hnodes.exists_url hk
      rw [hurl]
      simp [hqueried]
    · next hqueried => simp [hqueried]

theorem Owns.unique {id id' : UUID} {i : Nat} (h : r.Owns id i) (h' : r.Owns id' i) : id = id' := by
  obtain ⟨pos, hpos, rfl⟩ := h
  obtain ⟨pos', hpos', rfl⟩ := h'
  cases hpos.symm.trans hpos'
  rfl

/-- In a ring in which the positions have a router that is present, one has the position with a
number. -/
theorem exists_owns (hne : r.positions ≠ [])
    (hrouters : ∀ pos ∈ r.positions, r.routerAt pos ∈ r.routers) (i : Nat) :
    ∃ id ∈ r.routers, r.Owns id i := by
  have hlt : i % r.positions.length < r.positions.length :=
    Nat.mod_lt _ (List.length_pos_iff.2 hne)
  exact ⟨_, hrouters _ (List.getElem_mem hlt), owns_mod.1 ((owns_iff_of_lt hlt).2 rfl)⟩

theorem Clean.routerAt_mem (h : r.Clean) {pos : Nat} (hpos : pos ∈ r.positions) :
    r.routerAt pos ∈ r.routers := by
  obtain ⟨id, hid, hrouter⟩ := h.exists_router hpos
  rwa [routerAt, hrouter, Option.getD_some]

/-! ## Queries and their assignment -/

theorem isGreatest_passable {nodeIDs : List UUID} {k : Nat} (hk : k < nodeIDs.length) :
    IsGreatest (r.Passable nodeIDs k)
      (Sweep.passed r.positions ((nodeIDs.take (k + 1)).map nodePosition)) := by
  have hlen : ((nodeIDs.take (k + 1)).map nodePosition).length = k + 1 := by
    rw [List.length_map, List.length_take]
    omega
  have hmem : ∀ i, i ∈ r.Passable nodeIDs k ↔
      i ≤ Sweep.passed r.positions ((nodeIDs.take (k + 1)).map nodePosition) := by
    intro i
    rw [Sweep.le_passed_iff, hlen]
    refine and_congr_right fun _ => ?_
    constructor
    · intro hall j x hx hrank
      rw [List.getElem?_map, Option.map_eq_some_iff] at hx
      obtain ⟨nodeID, hnode, rfl⟩ := hx
      have hj : j < k + 1 := by
        have := (List.getElem?_eq_some_iff.1 hnode).1
        rw [List.length_take] at this
        omega
      rw [List.getElem?_take_of_lt hj] at hnode
      exact hall j nodeID (by omega) hnode (Sweep.rank_lt_length_iff.1 hrank)
    · intro hall j nodeID hj hnode hpos
      refine hall j _ ?_ (Sweep.rank_lt_length_iff.2 hpos)
      rw [List.getElem?_map, List.getElem?_take_of_lt (by omega), hnode, Option.map_some]
  exact ⟨(hmem _).2 le_rfl, fun i hi => (hmem i).1 hi⟩

theorem not_owns_of_empty (hempty : r.positions = []) (i : Nat) : ¬ r.Owns routerID i := by
  rintro ⟨pos, hpos, -⟩
  rw [hempty] at hpos
  cases hpos

/-- A query is right if and only if the sweep reaches a position of the router at exactly the nodes
that belong to it. -/
theorem queriesAssigned_iff (h : r.Sorted) {nodes : Targets} {nodeIDs : List UUID}
    (hnodes : SortedNodes nodes nodeIDs) :
    r.QueriesAssigned routerID nodes nodeIDs ↔ ∀ k nodeID i, nodeIDs[k]? = some nodeID →
      IsGreatest (r.Passable nodeIDs k) i →
      (r.Owns routerID i ↔ r.Assigned routerID nodeID) := by
  by_cases hne : r.positions = []
  · refine iff_of_true (fun nodeID url => ?_) fun k nodeID i _ _ => ?_
    · rw [assigned_iff_owns h, queryHealthcheckURLs, if_pos (.inl (List.length_eq_zero_iff.2 hne))]
      simp [not_owns_of_empty hne]
    · rw [assigned_iff_owns h]
      exact iff_of_false (not_owns_of_empty hne i) (not_owns_of_empty hne _)
  constructor
  · intro hquery k nodeID i hk hi
    obtain rfl := hi.unique (isGreatest_passable (List.getElem?_eq_some_iff.1 hk).1)
    obtain ⟨url, hurl⟩ := hnodes.exists_url hk
    have hiff := hquery nodeID url
    rw [lookup_query h hne hnodes, and_congr_right_iff] at hiff
    rw [← hiff hurl]
    constructor
    · exact fun howns => ⟨k, hk, howns⟩
    · rintro ⟨k', hk', howns⟩
      obtain rfl := hnodes.index_eq hk hk'
      exact howns
  · intro hall nodeID url
    rw [lookup_query h hne hnodes, and_congr_right_iff]
    intro hurl
    constructor
    · rintro ⟨k, hk, howns⟩
      have hgreatest := isGreatest_passable (r := r) (List.getElem?_eq_some_iff.1 hk).1
      exact (hall k nodeID _ hk hgreatest).1 howns
    · intro hassigned
      obtain ⟨k, hk⟩ := hnodes.exists_index hurl
      have hgreatest := isGreatest_passable (r := r) (List.getElem?_eq_some_iff.1 hk).1
      exact ⟨k, hk, (hall k nodeID _ hk hgreatest).2 hassigned⟩

/-! ## All queries of a ring -/

theorem passed_singleton {x : Nat} (hx : ∃ pos ∈ r.positions, pos < x) :
    Sweep.passed r.positions [x] = 1 := by
  have hrank : 0 < Sweep.rank r.positions x := Sweep.rank_pos_iff.2 hx
  rw [← List.nil_append [x], Sweep.passed_append, Sweep.pass]
  simp only [Sweep.passed, List.foldl_nil]
  split <;> omega

theorem owns_rank_iff (h : r.Sorted) {pos : Nat} (hpos : pos ∈ r.positions) :
    r.Owns routerID (Sweep.rank r.positions pos) ↔ r.routerAt pos = routerID := by
  have hlt : Sweep.rank r.positions pos < r.positions.length :=
    Sweep.rank_lt_length_iff.2 ⟨pos, hpos, le_rfl⟩
  rw [Owns, Nat.mod_eq_of_lt hlt, Sweep.getElem?_rank h.pairwise hpos]
  simp

theorem one_le_passed {nodeIDs : List UUID} {k : Nat} {id : UUID} (hk : nodeIDs[k]? = some id)
    (hrank : 0 < Sweep.rank r.positions (nodePosition id)) :
    1 ≤ Sweep.passed r.positions ((nodeIDs.take (k + 1)).map nodePosition) := by
  rw [map_take_succ hk, Sweep.passed_append, Sweep.pass]
  split <;> omega

/-- If all nodes above the first position belong to the router of the second one, so do all
positions other than the first one. -/
theorem owns_iff_of_pos (h : r.Sorted)
    (hall : ∀ nodeID, (∃ pos ∈ r.positions, pos < nodePosition nodeID) →
      ∀ routerID, r.Owns routerID 1 ↔ r.Assigned routerID nodeID)
    {i : Nat} (hi : 0 < i) (hlt : i < r.positions.length) :
    r.Owns routerID i ↔ r.Owns routerID 1 := by
  have hle : ∀ {a b : Nat} (ha : a < r.positions.length) (hb : b < r.positions.length), a ≤ b →
      r.positions[a] ≤ r.positions[b] := by
    intro a b ha hb hab
    obtain rfl | hab := Nat.eq_or_lt_of_le hab
    · exact le_rfl
    · exact List.pairwise_iff_getElem.1 h.pairwise a b ha hb hab
  have hfirst : 0 < r.positions.length := by omega
  have hsecond : 1 < r.positions.length := by omega
  rw [owns_iff_of_lt hlt]
  obtain heq | hgt := (hle hfirst hlt (Nat.zero_le i)).eq_or_lt
  · -- the positions up to this one are equal
    have h1 := hle hfirst hsecond (Nat.zero_le 1)
    have h2 := hle hsecond hlt hi
    rw [owns_iff_of_lt hsecond, Nat.le_antisymm h2 (heq ▸ h1)]
  · -- a node at this position belongs to its router
    have hmem := List.getElem_mem hlt
    obtain ⟨nodeID, hnode⟩ := exists_nodePosition (h.lt _ hmem)
    rw [hall nodeID ⟨_, List.getElem_mem hfirst, by rwa [hnode]⟩, assigned_iff_owns h, hnode,
      owns_rank_iff h hmem]

theorem forall_queriesAssigned_iff (h : r.Sorted) :
    (∀ routerID nodes nodeIDs, SortedNodes nodes nodeIDs →
        r.QueriesAssigned routerID nodes nodeIDs) ↔
      ∀ nodeID, (∃ pos ∈ r.positions, pos < nodePosition nodeID) →
        ∀ routerID, r.Owns routerID 1 ↔ r.Assigned routerID nodeID := by
  constructor
  · intro hquery nodeID hpos routerID
    have hnodes := sortedNodes_singleton nodeID
    have hgreatest : IsGreatest (r.Passable [nodeID] 0)
        (Sweep.passed r.positions [nodePosition nodeID]) := isGreatest_passable Nat.one_pos
    refine (queriesAssigned_iff h hnodes).1 (hquery routerID _ _ hnodes) 0 nodeID 1 rfl ?_
    rwa [← passed_singleton hpos]
  · intro hall routerID nodes nodeIDs hnodes
    refine (queriesAssigned_iff h hnodes).2 fun k nodeID i hk hi => ?_
    have hlt : k < nodeIDs.length := (List.getElem?_eq_some_iff.1 hk).1
    obtain rfl := hi.unique (isGreatest_passable hlt)
    by_cases hempty : r.positions = []
    · rw [assigned_iff_owns h]
      exact iff_of_false (not_owns_of_empty hempty _) (not_owns_of_empty hempty _)
    have hlen : 0 < r.positions.length := List.length_pos_iff.2 hempty
    obtain hrank | hrank := Nat.eq_zero_or_pos (Sweep.rank r.positions (nodePosition nodeID))
    · -- no position is below the node, so the sweep is still at the first one
      have hpassed := Sweep.passed_le_rank (hnodes.le_of_take hk) (hrank.trans_lt hlen)
      rw [hrank, Nat.le_zero] at hpassed
      rw [assigned_iff_owns h, hrank, hpassed]
    rw [← hall nodeID (Sweep.rank_pos_iff.1 hrank), ← owns_mod]
    set passed := Sweep.passed r.positions ((nodeIDs.take (k + 1)).map nodePosition)
    obtain hzero | hpos := Nat.eq_zero_or_pos (passed % r.positions.length)
    · -- the sweep has started again, so the node is above all positions
      have hend : ¬ Sweep.rank r.positions (nodePosition nodeID) < r.positions.length := by
        intro hlt
        have hle : passed ≤ _ := Sweep.passed_le_rank (hnodes.le_of_take hk) hlt
        have hone : 1 ≤ passed := one_le_passed hk hrank
        rw [Nat.mod_eq_of_lt (by omega)] at hzero
        omega
      have heq := Nat.le_antisymm (Sweep.rank_le_length (nodePosition nodeID)) (not_lt.1 hend)
      rw [hall nodeID (Sweep.rank_pos_iff.1 hrank), assigned_iff_owns h, heq, hzero,
        ← Nat.mod_self r.positions.length, owns_mod]
    · exact owns_iff_of_pos h hall hpos (Nat.mod_lt _ hlen)

/-- After any calls a query returns the nodes that belong to the router if and only if the position
that the sweep reaches at each node is the router's exactly for these. For all queries of a ring
that is so if and only if all nodes above the first position belong to the router of the second
one. -/
theorem query_assigned_iff (acts : List Act) :
    let r := acts.foldl step newRing
    (∀ routerID nodes nodeIDs, SortedNodes nodes nodeIDs →
      (r.QueriesAssigned routerID nodes nodeIDs ↔ ∀ k nodeID i, nodeIDs[k]? = some nodeID →
        IsGreatest (r.Passable nodeIDs k) i →
        (r.Owns routerID i ↔ r.Assigned routerID nodeID))) ∧
    ((∀ routerID nodes nodeIDs, SortedNodes nodes nodeIDs →
        r.QueriesAssigned routerID nodes nodeIDs) ↔
      ∀ nodeID, (∃ pos ∈ r.positions, pos < nodePosition nodeID) →
        ∀ routerID, r.Owns routerID 1 ↔ r.Assigned routerID nodeID) := by
  intro r
  have h : r.Sorted := sorted_run acts
  exact ⟨fun _ _ _ hnodes => queriesAssigned_iff h hnodes, forall_queriesAssigned_iff h⟩

theorem owns_iff_assigned {routerID nodeID : UUID} (h : r.Sorted) {nodeIDs : List UUID} {k i : Nat}
    (hi : IsGreatest (r.Passable nodeIDs k) i) (hk : k < nodeIDs.length)
    (hreached : Sweep.passed r.positions ((nodeIDs.take (k + 1)).map nodePosition) =
      Sweep.rank r.positions (nodePosition nodeID)) :
    r.Owns routerID i ↔ r.Assigned routerID nodeID := by
  rw [assigned_iff_owns h, hi.unique (isGreatest_passable hk), hreached]

def nextRouter : UUID := 0x40008000000000000001

/-- Nodes whose next positions are the first and the second one of the two routers. -/
def firstNode : UUID := 0x1000000000004000800000000000007b
def secondNode : UUID := 0x1000000000004000800000000000003a

theorem query_assigned_iff_two :
    let r := [Act.add exampleRouter, Act.add nextRouter].foldl step newRing
    let nodes : Targets := (AList.singleton secondNode []).insert firstNode []
    SortedNodes nodes [firstNode, secondNode] ∧
      ∀ id, r.QueriesAssigned id nodes [firstNode, secondNode] := by
  intro r nodes
  have hnodes : SortedNodes nodes [firstNode, secondNode] :=
    ⟨by decide +kernel, by decide +kernel⟩
  have hreached : Sweep.passed r.positions [nodePosition firstNode] =
        Sweep.rank r.positions (nodePosition firstNode) ∧
      Sweep.passed r.positions [nodePosition firstNode, nodePosition secondNode] =
        Sweep.rank r.positions (nodePosition secondNode) := by
    decide +kernel
  refine ⟨hnodes, fun id => ((query_assigned_iff _).1 id _ _ hnodes).2 fun k nodeID i hk hi => ?_⟩
  match k with
  | 0 =>
    cases hk
    exact owns_iff_assigned (sorted_run _) hi (by decide) hreached.1
  | 1 =>
    cases hk
    exact owns_iff_assigned (sorted_run _) hi (by decide) hreached.2

def exampleNode : UUID := 0x10000000000040008000000000000001

/-- The next position after the node is the second router's, but the query stops at the second
position of the ring, which is the first router's. -/
theorem query_stops_at_second_position :
    let r := [Act.add exampleRouter, Act.add nextRouter].foldl step newRing
    let nodes : Targets := AList.singleton exampleNode []
    SortedNodes nodes [exampleNode] ∧ r.Assigned nextRouter exampleNode ∧
      ¬ r.Assigned exampleRouter exampleNode ∧
      (r.queryHealthcheckURLs exampleRouter nodes [exampleNode]).lookup exampleNode = some [] ∧
      ¬ r.QueriesAssigned exampleRouter nodes [exampleNode] := by
  intro r nodes
  obtain ⟨hquery, hnext⟩ :
      (r.queryHealthcheckURLs exampleRouter nodes [exampleNode]).lookup exampleNode = some [] ∧
        (r.successor (nodePosition exampleNode)).map r.routerAt = some nextRouter := by
    decide +kernel
  obtain ⟨pos, hpos, hrouter⟩ := Option.map_eq_some_iff.1 hnext
  have hnot : ¬ r.Assigned exampleRouter exampleNode := by
    rintro ⟨pos', hpos', hrouter'⟩
    cases hpos.symm.trans hpos'
    exact absurd (hrouter.symm.trans hrouter') (by decide)
  refine ⟨sortedNodes_singleton _, ⟨pos, hpos, hrouter⟩, hnot, hquery, fun hall => ?_⟩
  exact hnot ((hall exampleNode []).1 hquery).2

end Ring

end Router
