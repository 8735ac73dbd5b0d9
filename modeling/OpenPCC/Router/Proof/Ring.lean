import Mathlib.Data.Finset.Basic
import OpenPCC.Router.Ring

/-!
# The ring as a function of its routers

In a `Clean` ring the virtual positions of the routers are pairwise distinct, and the positions and
the map are exactly theirs; so it is determined by its routers (`Clean.eq`). A ring is clean if and
only if it is the fresh ring of its routers in every order (`canonical_iff_clean`): of two routers
with a common position the one that is added last has it. A step keeps a ring clean unless it adds a
router with a position of another one (`Clean.step_iff`).
-/

namespace Router

open Go

/-! ## Virtual positions -/

/-- The positions of one router are distinct, because the remainders after the number of the virtual
node are. -/
theorem nodup_virtualPositions (routerID : UUID) : (virtualPositions routerID).Nodup := by
  have hprefix : ((List.range virtualNodesPerRouter).map fun i =>
      (BigEndian.putUint32 (UInt32.ofNat i)).foldl crc32Byte 0xFFFFFFFF).Nodup := by
    decide +kernel
  refine List.Nodup.map_on (fun i hi j hj h => ?_) List.nodup_range
  have hxor := Nat.xor_left_inj.1 h
  rw [List.foldl_append, List.foldl_append] at hxor
  exact List.inj_on_of_nodup_map hprefix hi hj
    (foldl_crc32Byte_inj (foldl_crc32Byte_lt (by decide) _) (foldl_crc32Byte_lt (by decide) _) hxor)

theorem foldl_update_eq (l : List Nat) (v : Option UUID) (m : Nat → Option UUID) (pos : Nat) :
    l.foldl (fun m p => Function.update m p v) m pos = if pos ∈ l then v else m pos := by
  induction l generalizing m with
  | nil => simp
  | cons p l ih =>
    rw [List.foldl_cons, ih]
    by_cases hl : pos ∈ l
    · simp [hl]
    · by_cases hp : pos = p
      · simp [hp]
      · simp [hl, hp]

namespace Ring

variable {r r' : Ring} {routerID : UUID}

/-! ## Single calls -/

theorem addRouter_of_mem (h : routerID ∈ r.routers) : r.addRouter routerID = r := if_pos h

theorem routers_addRouter : (r.addRouter routerID).routers = insert routerID r.routers := by
  unfold addRouter
  split
  · next h => exact (Finset.insert_eq_self.2 h).symm
  · rfl

theorem posToRouter_addRouter (h : routerID ∉ r.routers) (pos : Nat) :
    (r.addRouter routerID).posToRouter pos =
      if pos ∈ virtualPositions routerID then some routerID else r.posToRouter pos := by
  rw [addRouter, if_neg h]
  exact foldl_update_eq ..

theorem positions_addRouter (h : routerID ∉ r.routers) :
    (r.addRouter routerID).positions =
      (r.positions ++ virtualPositions routerID).insertionSort (· ≤ ·) := by
  rw [addRouter, if_neg h]

theorem posToRouter_removePositions (routerID : UUID) (m : Nat → Option UUID)
    (positions : List Nat) (pos : Nat) :
    (removePositions routerID m positions).1 pos =
      if pos ∈ positions ∧ m pos = some routerID then none else m pos := by
  induction positions generalizing m with
  | nil => simp [removePositions]
  | cons p positions ih =>
    rw [removePositions]
    by_cases hpos : pos = p
    · subst hpos
      cases hm : m pos with
      | none => split <;> simp [ih, hm]
      | some id =>
        by_cases hid : id = routerID
        · simp [ih, hid]
        · simp [ih, hm, hid]
    · split <;> simp [ih, hpos]

theorem positions_removePositions (routerID : UUID) {m : Nat → Option UUID} {positions : List Nat}
    (hnodup : positions.Nodup) (hmapped : ∀ pos ∈ positions, ∃ id, m pos = some id) :
    (removePositions routerID m positions).2 =
      positions.filter fun pos => m pos ≠ some routerID := by
  induction positions generalizing m with
  | nil => simp [removePositions]
  | cons p positions ih =>
    obtain ⟨hp, hnodup⟩ := List.nodup_cons.1 hnodup
    rw [List.forall_mem_cons] at hmapped
    obtain ⟨⟨id, hid⟩, hmapped⟩ := hmapped
    rw [removePositions]
    by_cases hrouter : id = routerID
    · -- the position is removed, and it is not among the rest
      have hrest : ∀ pos ∈ positions, Function.update m p none pos = m pos := by
        intro pos hpos
        exact Function.update_of_ne (ne_of_mem_of_not_mem hpos hp) _ _
      have hmapped' : ∀ pos ∈ positions, ∃ id', Function.update m p none pos = some id' := by
        intro pos hpos
        rw [hrest pos hpos]
        exact hmapped pos hpos
      rw [if_neg (by simp [hid, hrouter]), ih hnodup hmapped',
        List.filter_cons_of_neg (by simp [hid, hrouter])]
      exact List.filter_congr fun pos hpos => by rw [hrest pos hpos]
    · rw [if_pos (by simp [hid, hrouter]), List.filter_cons_of_pos (by simp [hid, hrouter])]
      exact congrArg (p :: ·) (ih hnodup hmapped)

theorem routers_removeRouter : (r.removeRouter routerID).routers = r.routers.erase routerID := by
  unfold removeRouter
  split
  · next h => exact (Finset.erase_eq_of_notMem h).symm
  · rfl

theorem posToRouter_removeRouter_addRouter (h : routerID ∉ r.routers) {pos : Nat}
    (hpos : pos ∈ virtualPositions routerID) :
    ((r.addRouter routerID).removeRouter routerID).posToRouter pos = none := by
  have hadded : routerID ∈ (r.addRouter routerID).routers := by
    rw [routers_addRouter]
    exact Finset.mem_insert_self ..
  have hposition : pos ∈ (r.addRouter routerID).positions := by
    rw [positions_addRouter h, List.mem_insertionSort]
    exact List.mem_append_right _ hpos
  rw [removeRouter, if_neg (not_not.2 hadded)]
  refine (posToRouter_removePositions ..).trans (if_pos ⟨hposition, ?_⟩)
  rw [posToRouter_addRouter h, if_pos hpos]

/-! ## Clean rings -/

/-- The ring has exactly the virtual positions of its routers, which are pairwise distinct. -/
structure Clean (r : Ring) : Prop where
  distinct : ∀ id ∈ r.routers, ∀ id' ∈ r.routers, id ≠ id' →
    (virtualPositions id).Disjoint (virtualPositions id')
  sorted : r.positions.SortedLT
  mem_positions : ∀ pos, pos ∈ r.positions ↔ ∃ id ∈ r.routers, pos ∈ virtualPositions id
  posToRouter : ∀ pos id,
    r.posToRouter pos = some id ↔ id ∈ r.routers ∧ pos ∈ virtualPositions id

theorem clean_newRing : newRing.Clean where
  distinct id hid := absurd hid (Finset.notMem_empty id)
  sorted := List.Pairwise.nil.sortedLT
  mem_positions pos := by simp [newRing]
  posToRouter pos id := by simp [newRing]

theorem Clean.eq (h : r.Clean) (h' : r'.Clean) (hrouters : r.routers = r'.routers) : r = r' := by
  have hpositions : r.positions = r'.positions := by
    refine h.sorted.eq_of_mem_iff h'.sorted fun pos => ?_
    rw [h.mem_positions, h'.mem_positions, hrouters]
  have hmap : r.posToRouter = r'.posToRouter := by
    funext pos
    refine Option.ext fun id => ?_
    rw [h.posToRouter, h'.posToRouter, hrouters]
  cases r
  cases r'
  simp_all

theorem Clean.exists_router (h : r.Clean) {pos : Nat} (hpos : pos ∈ r.positions) :
    ∃ id ∈ r.routers, r.posToRouter pos = some id := by
  obtain ⟨id, hid, hmem⟩ := (h.mem_positions pos).1 hpos
  exact ⟨id, hid, (h.posToRouter pos id).2 ⟨hid, hmem⟩⟩

theorem Clean.addRouter (h : r.Clean) (hnew : routerID ∉ r.routers)
    (hdisjoint : ∀ id ∈ r.routers, (virtualPositions routerID).Disjoint (virtualPositions id)) :
    (r.addRouter routerID).Clean where
  distinct := by
    rw [routers_addRouter]
    intro id hid id' hid' hne
    rw [Finset.mem_insert] at hid hid'
    obtain rfl | hid := hid
    · obtain rfl | hid' := hid'
      · exact absurd rfl hne
      · exact hdisjoint id' hid'
    · obtain rfl | hid' := hid'
      · exact (hdisjoint id hid).symm
      · exact h.distinct id hid id' hid' hne
  sorted := by
    rw [positions_addRouter hnew]
    refine List.sortedLE_insertionSort.sortedLT_of_nodup ?_
    rw [(List.perm_insertionSort _ _).nodup_iff, List.nodup_append']
    refine ⟨h.sorted.nodup, nodup_virtualPositions routerID, fun pos hpos hmem => ?_⟩
    obtain ⟨id, hid, hmem'⟩ := (h.mem_positions pos).1 hpos
    exact hdisjoint id hid hmem hmem'
  mem_positions pos := by
    rw [positions_addRouter hnew, List.mem_insertionSort, List.mem_append, h.mem_positions,
      routers_addRouter, Finset.exists_mem_insert, or_comm]
  posToRouter pos id := by
    rw [posToRouter_addRouter hnew, routers_addRouter, Finset.mem_insert]
    by_cases hpos : pos ∈ virtualPositions routerID
    · rw [if_pos hpos, Option.some.injEq]
      constructor
      · rintro rfl
        exact ⟨.inl rfl, hpos⟩
      · rintro ⟨rfl | hid, hmem⟩
        · rfl
        · exact absurd hmem (hdisjoint id hid hpos)
    · rw [if_neg hpos, h.posToRouter]
      constructor
      · rintro ⟨hid, hmem⟩
        exact ⟨.inr hid, hmem⟩
      · rintro ⟨rfl | hid, hmem⟩
        · exact absurd hmem hpos
        · exact ⟨hid, hmem⟩

theorem Clean.removeRouter (h : r.Clean) : (r.removeRouter routerID).Clean := by
  unfold Ring.removeRouter
  split
  · exact h
  have hmapped : ∀ pos ∈ r.positions, ∃ id, r.posToRouter pos = some id := by
    intro pos hpos
    obtain ⟨id, -, hid⟩ := h.exists_router hpos
    exact ⟨id, hid⟩
  have hkept := positions_removePositions routerID h.sorted.nodup hmapped
  -- a position that is not its router's has another router
  have hother : ∀ {pos id}, id ∈ r.routers → pos ∈ virtualPositions id →
      (r.posToRouter pos ≠ some routerID ↔ id ≠ routerID) := by
    intro pos id hid hpos
    rw [(h.posToRouter pos id).2 ⟨hid, hpos⟩, ne_eq, Option.some.injEq]
  refine ⟨fun id hid id' hid' hne => ?_, ?_, fun pos => ?_, fun pos id => ?_⟩
  · exact h.distinct id (Finset.mem_of_mem_erase hid) id' (Finset.mem_of_mem_erase hid') hne
  · simp only [hkept]
    exact (h.sorted.pairwise.filter _).sortedLT
  · simp only [hkept, List.mem_filter, h.mem_positions, decide_eq_true_eq, Finset.mem_erase]
    constructor
    · rintro ⟨⟨id, hid, hpos⟩, hne⟩
      exact ⟨id, ⟨(hother hid hpos).1 hne, hid⟩, hpos⟩
    · rintro ⟨id, ⟨hne, hid⟩, hpos⟩
      exact ⟨⟨id, hid, hpos⟩, (hother hid hpos).2 hne⟩
  · simp only [posToRouter_removePositions, Finset.mem_erase]
    by_cases hrouter : r.posToRouter pos = some routerID
    · have hpos := (h.mem_positions pos).2 ⟨routerID, (h.posToRouter pos routerID).1 hrouter⟩
      rw [if_pos ⟨hpos, hrouter⟩]
      refine iff_of_false (by simp) fun ⟨⟨hne, hid⟩, hmem⟩ => ?_
      exact (hother hid hmem).2 hne hrouter
    · rw [if_neg fun hand => hrouter hand.2, h.posToRouter]
      constructor
      · rintro ⟨hid, hmem⟩
        exact ⟨⟨(hother hid hmem).1 hrouter, hid⟩, hmem⟩
      · rintro ⟨⟨-, hid⟩, hmem⟩
        exact ⟨hid, hmem⟩

/-! ## Fresh rings -/

theorem fresh_append (ids : List UUID) (id : UUID) :
    fresh (ids ++ [id]) = (fresh ids).addRouter id :=
  List.foldl_append

theorem routers_fresh (ids : List UUID) : (fresh ids).routers = ids.toFinset := by
  induction ids using List.reverseRecOn with
  | nil => rfl
  | append_singleton ids id ih =>
    rw [fresh_append, routers_addRouter, ih]
    ext x
    rw [Finset.mem_insert, List.mem_toFinset, List.mem_toFinset, List.mem_append,
      List.mem_singleton, or_comm]

theorem clean_fresh {ids : List UUID} (hnodup : ids.Nodup)
    (hdistinct : ∀ id ∈ ids, ∀ id' ∈ ids, id ≠ id' →
      (virtualPositions id).Disjoint (virtualPositions id')) : (fresh ids).Clean := by
  induction ids using List.reverseRecOn with
  | nil => exact clean_newRing
  | append_singleton ids id ih =>
    rw [List.nodup_append_comm, List.singleton_append, List.nodup_cons] at hnodup
    obtain ⟨hnew, hnodup⟩ := hnodup
    rw [fresh_append]
    have hmem : ∀ x ∈ ids, x ∈ ids ++ [id] := fun x hx => List.mem_append_left _ hx
    refine (ih hnodup fun x hx y hy => hdistinct x (hmem x hx) y (hmem y hy)).addRouter ?_ ?_
    · rwa [routers_fresh, List.mem_toFinset]
    · intro x hx
      rw [routers_fresh, List.mem_toFinset] at hx
      exact hdistinct id (by simp) x (hmem x hx) (ne_of_mem_of_not_mem hx hnew).symm

theorem clean_fresh_singleton (id : UUID) : (fresh [id]).Clean :=
  clean_newRing.addRouter (Finset.notMem_empty _) nofun

theorem posToRouter_fresh_append {ids : List UUID} {id : UUID} (hid : id ∉ ids) {pos : Nat}
    (hpos : pos ∈ virtualPositions id) : (fresh (ids ++ [id])).posToRouter pos = some id := by
  rw [fresh_append, posToRouter_addRouter (by rwa [routers_fresh, List.mem_toFinset]), if_pos hpos]

/-- The ring is also the one in which a given router was added last. -/
theorem Canonical.posToRouter_eq (h : r.Canonical) {id : UUID} (hid : id ∈ r.routers) {pos : Nat}
    (hpos : pos ∈ virtualPositions id) : r.posToRouter pos = some id := by
  have hnew : id ∉ (r.routers.erase id).toList := by
    rw [Finset.mem_toList]
    exact Finset.notMem_erase id r.routers
  have hnodup : ((r.routers.erase id).toList ++ [id]).Nodup := by
    rw [List.nodup_append_comm, List.singleton_append, List.nodup_cons]
    exact ⟨hnew, Finset.nodup_toList _⟩
  have hset : ((r.routers.erase id).toList ++ [id]).toFinset = r.routers := by
    ext x
    rw [List.mem_toFinset, List.mem_append, Finset.mem_toList, Finset.mem_erase,
      List.mem_singleton]
    by_cases hx : x = id
    · simp [hx, hid]
    · simp [hx]
  rw [h.1 _ hnodup hset]
  exact posToRouter_fresh_append hnew hpos

theorem canonical_iff_clean : r.Canonical ↔ r.Clean := by
  constructor
  · intro h
    have hdistinct : ∀ id ∈ r.routers, ∀ id' ∈ r.routers, id ≠ id' →
        (virtualPositions id).Disjoint (virtualPositions id') := by
      intro id hid id' hid' hne pos hpos hpos'
      have heq := (h.posToRouter_eq hid hpos).symm.trans (h.posToRouter_eq hid' hpos')
      exact hne (Option.some.inj heq)
    have hlist : r.routers.toList.toFinset = r.routers := Finset.toList_toFinset _
    rw [h.1 _ (Finset.nodup_toList _) hlist]
    refine clean_fresh (Finset.nodup_toList _) fun id hid id' hid' => ?_
    rw [Finset.mem_toList] at hid hid'
    exact hdistinct id hid id' hid'
  · intro h
    refine ⟨fun ids hnodup hset => h.eq (clean_fresh hnodup ?_) ?_, fun pos hpos => ?_⟩
    · intro id hid id' hid'
      rw [← List.mem_toFinset, hset] at hid hid'
      exact h.distinct id hid id' hid'
    · rw [routers_fresh, hset]
    · exact h.exists_router hpos

/-! ## Runs -/

theorem Clean.step_iff (h : r.Clean) (act : Act) : (r.step act).Clean ↔ r.NoCollision act := by
  cases act with
  | add routerID =>
    by_cases hmem : routerID ∈ r.routers
    · refine iff_of_true ?_ fun hnot => absurd hmem hnot
      rw [step, addRouter_of_mem hmem]
      exact h
    · constructor
      · intro hadded _ id hid
        have hrouters : (r.addRouter routerID).routers = insert routerID r.routers :=
          routers_addRouter
        refine hadded.distinct routerID ?_ id ?_ (ne_of_mem_of_not_mem hid hmem).symm
        · rw [step, hrouters]
          exact Finset.mem_insert_self ..
        · rw [step, hrouters]
          exact Finset.mem_insert_of_mem hid
      · intro hdisjoint
        exact h.addRouter hmem (hdisjoint hmem)
  | remove routerID => exact iff_of_true h.removeRouter trivial

theorem clean_of_run {acts : List Act} (h : Trace.Along step NoCollision newRing acts) :
    (acts.foldl step newRing).Clean := by
  have hstep : ∀ r act, Clean r → r.NoCollision act → (Ring.step r act).Clean :=
    fun _ act hr => (hr.step_iff act).2
  exact (Trace.always_of_step hstep clean_newRing h).last

/-- The ring is that of the present routers after every call if and only if no router is added that
has a virtual position in common with one that is present. -/
theorem ring_canonical_iff (acts : List Act) :
    Trace.Always step Canonical newRing acts ↔ Trace.Along step NoCollision newRing acts := by
  have hcanonical : (Canonical : Ring → Prop) = Clean := by
    funext r
    exact propext canonical_iff_clean
  rw [hcanonical]
  exact Trace.always_iff_along (fun r act hr _ => hr.step_iff act) clean_newRing Trace.along_true

theorem lost_position {id id' : UUID} (hne : id' ≠ id) {pos : Nat}
    (hpos : pos ∈ virtualPositions id) (hpos' : pos ∈ virtualPositions id') :
    let acts : List Act := [.add id, .add id', .remove id']
    let r := acts.foldl step newRing
    r.routers = {id} ∧ r.posToRouter pos = none ∧ (fresh [id]).posToRouter pos = some id ∧
      ¬ Trace.Always step Canonical newRing acts := by
  intro acts r
  have hone : (newRing.addRouter id).routers = {id} := routers_fresh [id]
  have hnew : id' ∉ (newRing.addRouter id).routers := by
    rw [hone, Finset.mem_singleton]
    exact hne
  have hr : r = ((newRing.addRouter id).addRouter id').removeRouter id' := rfl
  have hrouters : r.routers = {id} := by
    rw [hr, routers_removeRouter, routers_addRouter, Finset.erase_insert hnew, hone]
  have hnone : r.posToRouter pos = none := by
    rw [hr, posToRouter_removeRouter_addRouter hnew hpos']
  refine ⟨hrouters, hnone, posToRouter_fresh_append List.not_mem_nil hpos, fun halways => ?_⟩
  have hid : id ∈ r.routers := by
    rw [hrouters]
    exact Finset.mem_singleton_self id
  have hmapped := Canonical.posToRouter_eq halways.last hid hpos
  cases hnone.symm.trans hmapped

def exampleRouter : UUID := 0x40008000000000000000

/-- A router with the same virtual positions: the ids differ by a multiple of the polynomial. -/
def collidingRouter : UUID := 0x4000800000410671db01

theorem ring_after_collision :
    let acts : List Act := [.add exampleRouter, .add collidingRouter, .remove collidingRouter]
    let r := acts.foldl step newRing
    let pos := virtualPosition exampleRouter 0
    r.routers = {exampleRouter} ∧ r.posToRouter pos = none ∧
      (fresh [exampleRouter]).posToRouter pos = some exampleRouter ∧
      ¬ Trace.Always step Canonical newRing acts := by
  have hzero : 0 ∈ List.range virtualNodesPerRouter := List.mem_range.2 (by decide)
  have hsame : virtualPosition exampleRouter 0 = virtualPosition collidingRouter 0 := by
    decide +kernel
  refine lost_position (by decide) (List.mem_map_of_mem hzero) ?_
  rw [hsame]
  exact List.mem_map_of_mem hzero

end Ring

end Router
