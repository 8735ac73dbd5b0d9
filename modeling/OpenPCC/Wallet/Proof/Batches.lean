import Mathlib.Algebra.Order.Group.Multiset
import OpenPCC.Wallet.Prefetch
import OpenPCC.Wallet.Proof.Rep

/-!
# The repetitions of prefetched batches

`CreateIntents` gives the repetitions of a batch the indices 0, 1, … and marks one as the last, in
an intent or in the closing repetition (`BatchHistory.created`): they are a group. `Flow` says that
these repetitions, and no others, are on their way to `DedupeBatches` or have arrived there, and
`Collected` that it has sent a batch exactly if all of them have arrived and credits are left. Both
are kept when `CreateIntents` goes on with a batch (`Update`).
-/

namespace Wallet

open Go Anonpay

/-! ## The repetitions of a batch -/

namespace BatchHistory

variable (h : BatchHistory)

/-- The last credit was used. -/
def Exhausted : Prop := 0 < h.served ∧ h.served = h.original.length

instance : Decidable h.Exhausted := inferInstanceAs (Decidable (_ ∧ _))

/-- The closing repetition. -/
def closing (b : Nat) : List (Rep Nat) := if h.Exhausted then [] else [⟨b, h.served, true⟩]

/-- What `CreateIntents` has sent. -/
def created (b : Nat) : List (Rep Nat) :=
  (List.range h.served).map (fun i => ⟨b, i, (i : Int) = h.original.length - 1⟩) ++
    if h.closed then h.closing b else []

/-- No credit is used twice, and the batch is closed when all are used. -/
structure WF : Prop where
  served_le : h.served ≤ h.original.length
  opened : h.closed = false → h.served < h.original.length

variable {h} {b : Nat}

theorem created_served (hopen : h.closed = false) :
    ({ h with served := h.served + 1 } : BatchHistory).created b =
      h.created b ++ [⟨b, h.served, (h.served : Int) = h.original.length - 1⟩] := by
  simp [created, hopen, List.range_succ]

theorem created_closed (hopen : h.closed = false) :
    ({ h with closed := true } : BatchHistory).created b = h.created b ++ h.closing b := by
  rw [created, if_pos rfl, created, hopen, if_neg Bool.false_ne_true, List.append_nil]
  rfl

theorem length_created (hclosed : h.closed = true) :
    (h.created b).length = h.served + if h.Exhausted then 0 else 1 := by
  rw [created, if_pos hclosed, closing, List.length_append, List.length_map, List.length_range]
  split <;> rfl

theorem exists_last_created (hwf : h.WF) :
    (∃ rep ∈ h.created b, rep.last = true) ↔ h.closed = true := by
  constructor
  · rintro ⟨rep, hrep, hlast⟩
    by_contra hopen
    have hlt := hwf.opened (Bool.eq_false_of_not_eq_true hopen)
    rw [created, if_neg hopen, List.append_nil] at hrep
    obtain ⟨i, hi, rfl⟩ := List.mem_map.1 hrep
    have := List.mem_range.1 hi
    have := of_decide_eq_true hlast
    omega
  · intro hclosed
    by_cases hex : h.Exhausted
    · obtain ⟨hpos, heq⟩ := hex
      refine ⟨⟨b, (h.served - 1 : Nat), true⟩, List.mem_append_left _ ?_, rfl⟩
      refine List.mem_map.2 ⟨h.served - 1, List.mem_range.2 (by omega), ?_⟩
      simp only [Rep.mk.injEq, true_and, decide_eq_true_eq]
      omega
    · refine ⟨⟨b, h.served, true⟩, List.mem_append_right _ ?_, rfl⟩
      rw [if_pos hclosed, closing, if_neg hex]
      exact List.mem_singleton_self _

theorem isGroup_created (hwf : h.WF) : IsGroup (h.created b) where
  nodup := by
    have hrange : (((List.range h.served).map fun i : Nat =>
        (⟨b, i, (i : Int) = h.original.length - 1⟩ : Rep Nat)).map (·.index)).Nodup := by
      rw [List.map_map]
      exact List.nodup_range.map Nat.cast_injective
    rw [created, List.map_append]
    split
    · rw [closing]
      split
      · simpa only [List.map_nil, List.append_nil] using hrange
      · refine hrange.append (List.nodup_singleton _) ?_
        simp
    · simpa only [List.map_nil, List.append_nil] using hrange
  last := by
    intro rep hrep hlast
    have hclosed := (exists_last_created hwf).1 ⟨rep, hrep, hlast⟩
    have hle := hwf.served_le
    rw [length_created hclosed]
    rw [created, if_pos hclosed, closing, List.mem_append] at hrep
    obtain hrep | hrep := hrep
    · obtain ⟨i, hi, rfl⟩ := List.mem_map.1 hrep
      have := List.mem_range.1 hi
      have hi := of_decide_eq_true hlast
      have hex : h.Exhausted := ⟨by omega, by omega⟩
      rw [if_pos hex]
      simp only
      omega
    · split at hrep
      · cases hrep
      · next hex =>
        rw [List.mem_singleton.1 hrep, if_neg hex]
        rfl

end BatchHistory

namespace Prefetch

variable {s s' : Prefetch} {b : Nat} {cur cur' : Option Nat}

/-! ## The repetitions -/

def history (s : Prefetch) (b : Nat) : Option BatchHistory := s.batches[b]?.map (·.toBatchHistory)

/-- What `CreateIntents` has sent for the batch number `b`. -/
def created (s : Prefetch) (b : Nat) : List (Rep Nat) :=
  ((s.history b).map fun h => h.created b).getD []

/-- The repetitions that there are. -/
def reps (s : Prefetch) : Multiset (Rep Nat) := (s.underway : Multiset (Rep Nat)) + s.arrived

/-- The repetitions of every batch are those that `CreateIntents` has sent; `cur` is the batch that
is not closed. -/
structure Flow (s : Prefetch) (cur : Option Nat) : Prop where
  reps (b : Nat) : s.reps.filter (·.key = b) = s.created b
  served_le {b : Nat} {h : BatchHistory} : s.history b = some h → h.served ≤ h.original.length
  opened {b : Nat} {h : BatchHistory} : s.history b = some h → h.closed = false → cur = some b

/-- The step changes the batch `b` and sends `new` repetitions of it. -/
structure Update (s s' : Prefetch) (b : Nat) (batch' : Batch) (new : List (Rep Nat)) : Prop where
  batches (j : Nat) : s'.batches[j]? = if j = b then some batch' else s.batches[j]?
  underway : (s'.underway : Multiset (Rep Nat)) = (new : Multiset (Rep Nat)) + s.underway
  key : ∀ rep ∈ new, rep.key = b
  arrived : s'.arrived = s.arrived
  resultsByBatch : s'.resultsByBatch = s.resultsByBatch
  sent : s'.sent = s.sent
  inFlight : s'.inFlight = s.inFlight
  paid : s'.paid = s.paid

section
variable {batch' : Batch} {new : List (Rep Nat)} (hu : Update s s' b batch' new)
include hu

theorem Update.history (j : Nat) :
    s'.history j = if j = b then some batch'.toBatchHistory else s.history j := by
  rw [Prefetch.history, hu.batches]
  split <;> rfl

theorem Update.created (j : Nat) :
    s'.created j = if j = b then batch'.created b else s.created j := by
  rw [Prefetch.created, hu.history]
  split
  · next hj => rw [hj, Option.map_some, Option.getD_some]
  · rfl

theorem Update.mem_underway {rep : Rep Nat} :
    rep ∈ s'.underway ↔ rep ∈ new ∨ rep ∈ s.underway := by
  rw [← Multiset.mem_coe, hu.underway, Multiset.mem_add, Multiset.mem_coe, Multiset.mem_coe]

theorem Flow.update (hf : Flow s cur) (hcreated : batch'.created b = s.created b ++ new)
    (hle : batch'.served ≤ batch'.original.length) (hcur : cur = none ∨ cur = some b)
    (hopen : batch'.closed = false → cur' = some b) : Flow s' cur' where
  reps j := by
    have hreps : s'.reps = (new : Multiset (Rep Nat)) + s.reps := by
      rw [Prefetch.reps, Prefetch.reps, hu.underway, hu.arrived, add_assoc]
    rw [hreps, Multiset.filter_add, hf.reps j, hu.created]
    by_cases hj : j = b
    · have hnew : (new : Multiset (Rep Nat)).filter (·.key = j) = new :=
        Multiset.filter_eq_self.2 fun rep hrep => (hu.key rep hrep).trans hj.symm
      rw [hnew, if_pos hj, hj, hcreated, ← Multiset.coe_add, add_comm]
    · have hnew : (new : Multiset (Rep Nat)).filter (·.key = j) = 0 :=
        Multiset.filter_eq_nil.2 fun rep hrep hkey => hj (hkey.symm.trans (hu.key rep hrep))
      rw [hnew, if_neg hj, zero_add]
  served_le {j h} hj := by
    rw [hu.history] at hj
    split at hj
    · cases hj
      exact hle
    · exact hf.served_le hj
  opened {j h} hj hclosed := by
    rw [hu.history] at hj
    split at hj
    · next heq =>
      cases hj
      rw [heq]
      exact hopen hclosed
    · next hne =>
      have := hf.opened hj hclosed
      obtain hnone | hsome := hcur
      · rw [hnone] at this
        cases this
      · rw [hsome, Option.some.injEq] at this
        exact absurd this.symm hne

end

theorem Flow.wf (hf : Flow s cur) {h : BatchHistory} (hb : s.history b = some h)
    (hcur : cur = some b → h.served < h.original.length) : h.WF where
  served_le := hf.served_le hb
  opened hclosed := hcur (hf.opened hb hclosed)

theorem Flow.exists_history (hf : Flow s cur) {rep : Rep Nat} (hrep : rep ∈ s.reps) :
    ∃ h, s.history rep.key = some h := by
  have hmem : rep ∈ s.reps.filter (·.key = rep.key) := Multiset.mem_filter.2 ⟨hrep, rfl⟩
  rw [hf.reps, created, Multiset.mem_coe] at hmem
  cases hh : s.history rep.key with
  | none =>
    rw [hh] at hmem
    cases hmem
  | some h => exact ⟨h, rfl⟩

/-! ## What was sent -/

/-- All repetitions of a batch have arrived. -/
def Done (s : Prefetch) (b : Nat) : Prop := ∃ h, s.history b = some h ∧ s.AllArrived b h

/-- All repetitions of a batch have arrived and it has credits left. -/
def Due (s : Prefetch) (b : Nat) : Prop :=
  ∃ h, s.history b = some h ∧ s.AllArrived b h ∧ h.served < h.original.length

theorem done_iff {h : BatchHistory} (hb : s.history b = some h) : s.Done b ↔ s.AllArrived b h := by
  rw [Done, hb]
  simp

theorem due_iff {h : BatchHistory} (hb : s.history b = some h) :
    s.Due b ↔ s.AllArrived b h ∧ h.served < h.original.length := by
  rw [Due, hb]
  simp

theorem Due.done (h : s.Due b) : s.Done b := by
  obtain ⟨history, hb, harrived, -⟩ := h
  exact ⟨history, hb, harrived⟩

theorem not_done_of_none (hb : s.history b = none) : ¬ s.Done b := by
  rintro ⟨h, hh, -⟩
  rw [hb] at hh
  cases hh

theorem not_done_of_open {h : BatchHistory} (hb : s.history b = some h) (hopen : h.closed = false) :
    ¬ s.Done b := by
  rw [done_iff hb]
  rintro ⟨hclosed, -⟩
  rw [hopen] at hclosed
  cases hclosed

theorem not_done_of_mem {rep : Rep Nat} (hrep : rep ∈ s.underway) : ¬ s.Done rep.key := by
  rintro ⟨h, -, -, hall⟩
  exact hall rep hrep rfl

/-- What `DedupeBatches` keeps and has sent. -/
structure Collected (s : Prefetch) : Prop where
  pending {b : Nat} : ¬ s.Done b → (s.resultsByBatch.lookup b).getD {} =
    RepResults.of (s.arrived.filter (·.key = b))
  kept {b : Nat} {g : RepResults} : s.resultsByBatch.lookup b = some g →
    ¬ s.Done b ∧ ∃ rep ∈ s.arrived, rep.key = b
  sent {b : Nat} : s.Due b → s.sent.count b = 1
  notSent {b : Nat} : ¬ s.Due b → s.sent.count b = 0

theorem Collected.congr (hc : Collected s) (harrived : s'.arrived = s.arrived)
    (hresults : s'.resultsByBatch = s.resultsByBatch) (hsent : s'.sent = s.sent)
    (hdone : ∀ j, s'.Done j ↔ s.Done j) (hdue : ∀ j, s'.Due j ↔ s.Due j) : Collected s' where
  pending {j} hj := by
    rw [hresults, harrived]
    exact hc.pending (mt (hdone j).2 hj)
  kept {j g} hg := by
    rw [hresults] at hg
    rw [hdone, harrived]
    exact hc.kept hg
  sent {j} hj := by
    rw [hsent]
    exact hc.sent ((hdue j).1 hj)
  notSent {j} hj := by
    rw [hsent]
    exact hc.notSent (mt (hdue j).2 hj)

theorem allArrived_congr (h : ∀ rep, rep.key = b → (rep ∈ s'.underway ↔ rep ∈ s.underway))
    (history : BatchHistory) : s'.AllArrived b history ↔ s.AllArrived b history :=
  and_congr_right fun _ => forall_congr' fun rep =>
    ⟨fun hrep hmem hkey => hrep ((h rep hkey).2 hmem) hkey,
      fun hrep hmem hkey => hrep ((h rep hkey).1 hmem) hkey⟩

theorem Collected.update {batch' : Batch} {new : List (Rep Nat)} (hu : Update s s' b batch' new)
    (hc : Collected s) (hbefore : ¬ s.Done b) (hafter : ¬ s'.Done b) : Collected s' := by
  have hall : ∀ j, j ≠ b → ∀ h, s'.AllArrived j h ↔ s.AllArrived j h := by
    intro j hj
    refine allArrived_congr fun rep hkey => ?_
    have hnew : rep ∉ new := fun hmem => hj (hkey.symm.trans (hu.key rep hmem))
    rw [hu.mem_underway, or_iff_right hnew]
  refine hc.congr hu.arrived hu.resultsByBatch hu.sent (fun j => ?_) fun j => ?_
  · by_cases hj : j = b
    · rw [hj]
      exact iff_of_false hafter hbefore
    · simp only [Done, hu.history, if_neg hj, hall j hj]
  · by_cases hj : j = b
    · rw [hj]
      exact iff_of_false (mt Due.done hafter) (mt Due.done hbefore)
    · simp only [Due, hu.history, if_neg hj, hall j hj]

end Prefetch

end Wallet
