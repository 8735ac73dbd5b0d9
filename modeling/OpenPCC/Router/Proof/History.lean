import OpenPCC.Router.Gossip

/-!
# Merging health histories

The loop of `Merge` works on the checks of each timestamp by themselves: it pairs them position by
position (`checksAt_mergeLoop`). Equal checks are recognised only if they stand at
the same position among the checks of their timestamp. So the merge is a union that both routers
agree on exactly if, at every timestamp, the checks of one history are a prefix of those of the
other (`merge_settles_iff`).
-/

namespace Router

open Go Runs

variable {h other m : History} {t : Time}

theorem mergeLoop_nil_right (h : History) : History.mergeLoop h [] = h := by
  cases h with
  | nil => rw [History.mergeLoop]
  | cons x h => rw [History.mergeLoop, History.mergeFrom]

theorem mergeLoop_cons (x y : Check) (h other : History) :
    History.mergeLoop (x :: h) (y :: other) =
      if x.timestamp < y.timestamp then x :: History.mergeLoop h (y :: other)
      else if y.timestamp < x.timestamp then y :: History.mergeLoop (x :: h) other
      else if x = y then x :: History.mergeLoop h other
      else x :: y :: History.mergeLoop h other := by
  simp only [History.mergeLoop, History.mergeFrom, Check.equal, decide_eq_true_eq]

/-- The induction that follows the loop: one of the histories is empty, or the loop takes the next
check of one of them or of both. -/
theorem mergeLoop_induction {motive : History → History → Prop}
    (nil_left : ∀ other, motive [] other) (nil_right : ∀ h, motive h [])
    (left : ∀ x h y other, x.timestamp < y.timestamp → motive h (y :: other) →
      motive (x :: h) (y :: other))
    (right : ∀ x h y other, y.timestamp < x.timestamp → motive (x :: h) other →
      motive (x :: h) (y :: other))
    (both : ∀ x h y other, x.timestamp = y.timestamp → motive h other →
      motive (x :: h) (y :: other)) (h other : History) : motive h other := by
  induction h generalizing other with
  | nil => exact nil_left other
  | cons x h ih =>
    induction other with
    | nil => exact nil_right _
    | cons y other ihother =>
      rcases lt_trichotomy x.timestamp y.timestamp with hlt | heq | hgt
      · exact left x h y other hlt (ih _)
      · exact both x h y other heq (ih _)
      · exact right x h y other hgt ihother

theorem mem_mergeLoop (c : Check) : c ∈ History.mergeLoop h other ↔ c ∈ h ∨ c ∈ other := by
  induction h, other using mergeLoop_induction with
  | nil_left other => simp [History.mergeLoop]
  | nil_right h => simp [mergeLoop_nil_right]
  | left x h y other hlt ih =>
    rw [mergeLoop_cons, if_pos hlt, List.mem_cons, ih, List.mem_cons (a := c) (l := h), or_assoc]
  | right x h y other hgt ih =>
    rw [mergeLoop_cons, if_neg hgt.not_gt, if_pos hgt]
    simp only [List.mem_cons, ih, or_assoc, or_left_comm]
  | both x h y other heq ih =>
    rw [mergeLoop_cons, if_neg heq.not_lt, if_neg heq.not_gt]
    split
    · next hxy => simp only [List.mem_cons, ih, hxy, or_assoc, or_left_comm, or_self_left]
    · simp only [List.mem_cons, ih, or_assoc, or_left_comm]

theorem ordered_cons_mergeLoop {c : Check} (hh : ∀ x ∈ h, c.timestamp ≤ x.timestamp)
    (hother : ∀ y ∈ other, c.timestamp ≤ y.timestamp)
    (hm : History.Ordered (History.mergeLoop h other)) :
    History.Ordered (c :: History.mergeLoop h other) := by
  refine List.pairwise_cons.2 ⟨fun x hx => ?_, hm⟩
  obtain hx | hx := (mem_mergeLoop x).1 hx
  · exact hh x hx
  · exact hother x hx

theorem ordered_mergeLoop (hh : h.Ordered) (hother : other.Ordered) :
    History.Ordered (History.mergeLoop h other) := by
  induction h, other using mergeLoop_induction with
  | nil_left other => exact hother
  | nil_right h => rwa [mergeLoop_nil_right]
  | left x h y other hlt ih =>
    rw [mergeLoop_cons, if_pos hlt]
    obtain ⟨hx, hh⟩ := List.pairwise_cons.1 hh
    have hy := (List.pairwise_cons.1 hother).1
    exact ordered_cons_mergeLoop hx
      (List.forall_mem_cons.2 ⟨hlt.le, fun z hz => hlt.le.trans (hy z hz)⟩) (ih hh hother)
  | right x h y other hgt ih =>
    rw [mergeLoop_cons, if_neg hgt.not_gt, if_pos hgt]
    have hx := (List.pairwise_cons.1 hh).1
    obtain ⟨hy, hother⟩ := List.pairwise_cons.1 hother
    exact ordered_cons_mergeLoop
      (List.forall_mem_cons.2 ⟨hgt.le, fun z hz => hgt.le.trans (hx z hz)⟩) hy (ih hh hother)
  | both x h y other heq ih =>
    rw [mergeLoop_cons, if_neg heq.not_lt, if_neg heq.not_gt]
    obtain ⟨hx, hh⟩ := List.pairwise_cons.1 hh
    obtain ⟨hy, hother⟩ := List.pairwise_cons.1 hother
    have htail := ih hh hother
    split
    · exact ordered_cons_mergeLoop hx (heq ▸ hy) htail
    · have hyfirst := ordered_cons_mergeLoop (heq ▸ hx) hy htail
      refine List.pairwise_cons.2 ⟨List.forall_mem_cons.2 ⟨heq.le, fun z hz => ?_⟩, hyfirst⟩
      obtain hz | hz := (mem_mergeLoop z).1 hz
      · exact hx z hz
      · exact heq ▸ hy z hz

theorem checksAt_cons (x : Check) (h : History) (t : Time) :
    History.checksAt (x :: h) t = if x.timestamp = t then x :: h.checksAt t else h.checksAt t :=
  runAt_cons x h t

theorem checksAt_eq_nil {y : Check} (hother : History.Ordered (y :: other))
    (hlt : t < y.timestamp) : History.checksAt (y :: other) t = [] := by
  refine runAt_eq_nil (List.forall_mem_cons.2 ⟨hlt, fun z hz => ?_⟩)
  exact hlt.trans_le ((List.pairwise_cons.1 hother).1 z hz)

/-- The merge pairs the checks of each timestamp. -/
theorem checksAt_mergeLoop (hh : h.Ordered) (hother : other.Ordered) (t : Time) :
    History.checksAt (History.mergeLoop h other) t =
      zipUnion (h.checksAt t) (other.checksAt t) := by
  induction h, other using mergeLoop_induction with
  | nil_left other => simp [History.mergeLoop, History.checksAt, runAt]
  | nil_right h => simp [mergeLoop_nil_right, History.checksAt, runAt]
  | left x h y other hlt ih =>
    rw [mergeLoop_cons, if_pos hlt, checksAt_cons x,
      ih (List.pairwise_cons.1 hh).2 hother, checksAt_cons x]
    split
    · next hx => rw [checksAt_eq_nil hother (hx ▸ hlt), zipUnion_nil_right, zipUnion_nil_right]
    · rfl
  | right x h y other hgt ih =>
    rw [mergeLoop_cons, if_neg hgt.not_gt, if_pos hgt, checksAt_cons,
      ih hh (List.pairwise_cons.1 hother).2, checksAt_cons y]
    split
    · next hy => rw [checksAt_eq_nil hh (hy ▸ hgt), zipUnion_nil_left, zipUnion_nil_left]
    · rfl
  | both x h y other heq ih =>
    have htail := ih (List.pairwise_cons.1 hh).2 (List.pairwise_cons.1 hother).2
    rw [mergeLoop_cons, if_neg heq.not_lt, if_neg heq.not_gt, checksAt_cons x, checksAt_cons y,
      ← heq]
    by_cases hx : x.timestamp = t
    · rw [if_pos hx, if_pos hx, zipUnion_cons]
      split
      · rw [checksAt_cons, if_pos hx, htail]
      · rw [checksAt_cons, if_pos hx, checksAt_cons, if_pos (heq ▸ hx), htail]
    · rw [if_neg hx, if_neg hx]
      split
      · rw [checksAt_cons, if_neg hx, htail]
      · rw [checksAt_cons, if_neg hx, checksAt_cons, if_neg (heq ▸ hx), htail]

theorem sublist_mergeLoop (h other : History) : h.Sublist (History.mergeLoop h other) := by
  induction h, other using mergeLoop_induction with
  | nil_left other => exact List.nil_sublist _
  | nil_right h => rw [mergeLoop_nil_right]
  | left x h y other hlt ih =>
    rw [mergeLoop_cons, if_pos hlt]
    exact ih.cons_cons x
  | right x h y other hgt ih =>
    rw [mergeLoop_cons, if_neg hgt.not_gt, if_pos hgt]
    exact ih.cons y
  | both x h y other heq ih =>
    rw [mergeLoop_cons, if_neg heq.not_lt, if_neg heq.not_gt]
    split
    · exact ih.cons_cons x
    · exact (ih.cons y).cons_cons x

theorem mergeLoop_eq_self_iff (hh : h.Ordered) (hother : other.Ordered) :
    History.mergeLoop h other = h ↔ ∀ t, other.checksAt t <+: h.checksAt t := by
  constructor
  · intro heq t
    have hat := checksAt_mergeLoop hh hother t
    rw [heq] at hat
    exact zipUnion_eq_left_iff.1 hat.symm
  · intro hpre
    refine eq_of_runAt (ordered_mergeLoop hh hother) hh fun t => ?_
    exact (checksAt_mergeLoop hh hother t).trans (zipUnion_of_prefix_right (hpre t))

/-! ## Two routers -/

/-- A history of the node `n`, in order. -/
structure History.OfNode (n : UUID) (h : History) : Prop where
  ordered : h.Ordered
  nodeID : ∀ c ∈ h, c.nodeID = n

variable {n : UUID}

theorem History.OfNode.mergeLoop (hh : h.OfNode n) (hother : other.OfNode n) :
    (History.mergeLoop h other).OfNode n where
  ordered := ordered_mergeLoop hh.ordered hother.ordered
  nodeID c hc := by
    obtain hc | hc := (mem_mergeLoop c).1 hc
    · exact hh.nodeID c hc
    · exact hother.nodeID c hc

theorem merge_eq_mergeLoop (hh : h.OfNode n) (hother : other.OfNode n) :
    h.merge other = .ok (History.mergeLoop h other) := by
  cases h with
  | nil => cases other <;> simp [History.merge, History.mergeLoop]
  | cons x h =>
    cases other with
    | nil => rw [mergeLoop_nil_right, History.merge]
    | cons y other =>
      have hx := hh.nodeID x List.mem_cons_self
      have hy := hother.nodeID y List.mem_cons_self
      rw [History.merge, if_neg (by simp [hx, hy])]

theorem mergeState_eq (hh : h.OfNode n) (hother : other.OfNode n) :
    NodeHealth.mergeState ⟨h⟩ ⟨other⟩ =
      (⟨History.mergeLoop h other⟩, decide (History.mergeLoop h other ≠ h)) := by
  rw [NodeHealth.mergeState, merge_eq_mergeLoop hh hother, NodeHealth.extend]
  dsimp only
  split
  · next hlen =>
    rw [← (sublist_mergeLoop h other).eq_of_length hlen.symm]
    simp
  · next hlen =>
    have hne : History.mergeLoop h other ≠ h := fun heq => hlen (by rw [heq])
    simp [hne]

/-- The two histories have the checks of every moment in the same order, as far as both go. -/
def History.Aligned (h other : History) : Prop :=
  ∀ t, h.checksAt t <+: other.checksAt t ∨ other.checksAt t <+: h.checksAt t

theorem aligned_iff_mergeLoop (hh : h.Ordered) (hother : other.Ordered) :
    History.mergeLoop other (History.mergeLoop h other) = History.mergeLoop h other ↔
      h.Aligned other := by
  have hm := ordered_mergeLoop hh hother
  have hat : ∀ t, History.checksAt (History.mergeLoop other (History.mergeLoop h other)) t =
      zipUnion (other.checksAt t) (zipUnion (h.checksAt t) (other.checksAt t)) := fun t => by
    rw [checksAt_mergeLoop hother hm, checksAt_mergeLoop hh hother]
  constructor
  · intro heq t
    rw [← zipUnion_zipUnion_iff, ← hat t, heq, checksAt_mergeLoop hh hother]
  · intro halign
    refine eq_of_runAt (ordered_mergeLoop hother hm) hm fun t => ?_
    exact (hat t).trans ((zipUnion_zipUnion_iff.2 (halign t)).trans
      (checksAt_mergeLoop hh hother t).symm)

theorem mergeLoop_comm (hh : h.Ordered) (hother : other.Ordered) (halign : h.Aligned other) :
    History.mergeLoop h other = History.mergeLoop other h := by
  refine eq_of_runAt (ordered_mergeLoop hh hother) (ordered_mergeLoop hother hh) fun t => ?_
  exact (checksAt_mergeLoop hh hother t).trans
    ((zipUnion_comm_of_comparable (halign t)).trans (checksAt_mergeLoop hother hh t).symm)

theorem exchanges_eq_iff (p : HealthPair) :
    (∀ sides, p.exchanges sides = (p, false)) ↔ ∀ side, p.exchange side = (p, false) := by
  constructor
  · intro h side
    have hside := h [side]
    simp only [HealthPair.exchanges, Bool.or_false] at hside
    exact hside
  · intro h sides
    induction sides with
    | nil => rfl
    | cons side sides ih => simp only [HealthPair.exchanges, h side, ih, Bool.or_false]

/-- Further merges change nothing exactly if the two histories are the same. -/
theorem exchange_eq_iff (hh : h.OfNode n) (hother : other.OfNode n) :
    (∀ side, HealthPair.exchange ⟨⟨h⟩, ⟨other⟩⟩ side = (⟨⟨h⟩, ⟨other⟩⟩, false)) ↔ h = other := by
  constructor
  · intro hsettled
    have hleft := hsettled .left
    have hright := hsettled .right
    simp only [HealthPair.exchange, mergeState_eq hh hother, mergeState_eq hother hh,
      Prod.mk.injEq, HealthPair.mk.injEq, NodeHealth.mk.injEq, and_true, true_and] at hleft hright
    refine eq_of_runAt hh.ordered hother.ordered fun t => List.IsPrefix.eq_of_length_le ?_ ?_
    · exact (mergeLoop_eq_self_iff hother.ordered hh.ordered).1 hright.1 t
    · exact ((mergeLoop_eq_self_iff hh.ordered hother.ordered).1 hleft.1 t).length_le
  · rintro rfl side
    have hself := (mergeLoop_eq_self_iff hh.ordered hh.ordered).2 fun t => List.prefix_rfl
    cases side <;> simp [HealthPair.exchange, mergeState_eq hh hh, hself]

theorem bothWays_leftFirst (hh : h.OfNode n) (hother : other.OfNode n) :
    HealthPair.bothWays ⟨⟨h⟩, ⟨other⟩⟩ .leftFirst =
      ⟨⟨History.mergeLoop h other⟩, ⟨History.mergeLoop other (History.mergeLoop h other)⟩⟩ := by
  simp only [HealthPair.bothWays, HealthPair.exchange, mergeState_eq hh hother,
    mergeState_eq hother (hh.mergeLoop hother)]

theorem bothWays_of_aligned (hh : h.OfNode n) (hother : other.OfNode n)
    (halign : h.Aligned other) (round : Round) :
    HealthPair.bothWays ⟨⟨h⟩, ⟨other⟩⟩ round =
      ⟨⟨History.mergeLoop h other⟩, ⟨History.mergeLoop h other⟩⟩ := by
  have hcomm := mergeLoop_comm hh.ordered hother.ordered halign
  cases round with
  | leftFirst =>
    rw [bothWays_leftFirst hh hother, (aligned_iff_mergeLoop hh.ordered hother.ordered).2 halign]
  | rightFirst =>
    have hagain := (aligned_iff_mergeLoop hother.ordered hh.ordered).2 fun t => (halign t).symm
    simp only [HealthPair.bothWays, HealthPair.exchange, mergeState_eq hother hh,
      mergeState_eq hh (hother.mergeLoop hh), hagain, hcomm]
  | crossing =>
    simp only [HealthPair.bothWays, HealthPair.exchange, mergeState_eq hh hother,
      mergeState_eq hother hh, hcomm]

theorem nodup_mergeLoop_of_aligned (hh : h.Ordered) (hnodup : h.Nodup) (hother : other.Ordered)
    (hothernodup : other.Nodup) (halign : h.Aligned other) :
    List.Nodup (History.mergeLoop h other) := by
  have hruns : ∀ t, (History.checksAt (History.mergeLoop h other) t).Nodup := by
    intro t
    rw [checksAt_mergeLoop hh hother]
    obtain hpre | hpre := halign t
    · rw [zipUnion_of_prefix_left hpre]
      exact hothernodup.filter _
    · rw [zipUnion_of_prefix_right hpre]
      exact hnodup.filter _
  exact nodup_of_runAt hruns

/-- The merge of two histories of a node is their union, in order and without duplicates, and two
routers that have merged each other's history have nothing more to tell each other, exactly if
the checks of every moment stand in the same order in both histories, as far as both go. -/
theorem merge_settles_iff (hh : h.OfNode n) (hnodup : h.Nodup) (hother : other.OfNode n)
    (hothernodup : other.Nodup) :
    ((∃ m, h.merge other = .ok m ∧ History.Ordered m ∧ m.Nodup ∧
        ∀ c, c ∈ m ↔ c ∈ h ∨ c ∈ other) ∧
      ∀ round sides, (HealthPair.bothWays ⟨⟨h⟩, ⟨other⟩⟩ round).exchanges sides =
        (HealthPair.bothWays ⟨⟨h⟩, ⟨other⟩⟩ round, false)) ↔
    h.Aligned other := by
  constructor
  · rintro ⟨-, hsettled⟩
    have hround := (exchanges_eq_iff _).1 (hsettled .leftFirst)
    rw [bothWays_leftFirst hh hother] at hround
    have hm := hh.mergeLoop hother
    have heq := (exchange_eq_iff hm (hother.mergeLoop hm)).1 hround
    exact (aligned_iff_mergeLoop hh.ordered hother.ordered).1 heq.symm
  · intro halign
    have hm := hh.mergeLoop hother
    refine ⟨⟨_, merge_eq_mergeLoop hh hother, hm.ordered, ?_, mem_mergeLoop⟩, fun round => ?_⟩
    · exact nodup_mergeLoop_of_aligned hh.ordered hnodup hother.ordered hothernodup halign
    · rw [exchanges_eq_iff, bothWays_of_aligned hh hother halign]
      exact (exchange_eq_iff hm hm).2 rfl

/-! ## Two checks at the same moment -/

def okCheck : Check := ⟨1, [], 0, 10, 0, 200, []⟩

def failedCheck : Check := ⟨1, [], 0, 10, 0, 500, []⟩

theorem merge_settles_prefix :
    History.merge [okCheck] [okCheck, failedCheck] = .ok [okCheck, failedCheck] ∧
      (HealthPair.bothWays ⟨⟨[okCheck]⟩, ⟨[okCheck, failedCheck]⟩⟩ .crossing).exchanges
        [.left, .right] = (⟨⟨[okCheck, failedCheck]⟩, ⟨[okCheck, failedCheck]⟩⟩, false) := by
  refine ⟨by decide, ?_⟩
  have halign : History.Aligned [okCheck] [okCheck, failedCheck] := fun t =>
    .inl (List.IsPrefix.filter _ ⟨[failedCheck], rfl⟩)
  exact ((merge_settles_iff (n := 1) ⟨by decide, by decide⟩ (by decide) ⟨by decide, by decide⟩
    (by decide)).2 halign).2 .crossing [.left, .right]

/-- Histories that have the two checks in different order are merged to one with both checks
twice; and two routers with one of the checks each still report changes after both have merged. -/
theorem merge_duplicates :
    (History.Ordered [okCheck, failedCheck] ∧ List.Nodup [okCheck, failedCheck]) ∧
    (History.Ordered [failedCheck, okCheck] ∧ List.Nodup [failedCheck, okCheck]) ∧
    History.merge [okCheck, failedCheck] [failedCheck, okCheck] =
      .ok [okCheck, failedCheck, failedCheck, okCheck] ∧
    ((HealthPair.bothWays ⟨⟨[okCheck]⟩, ⟨[failedCheck]⟩⟩ .leftFirst).exchange .left).2 = true := by
  decide

end Router
