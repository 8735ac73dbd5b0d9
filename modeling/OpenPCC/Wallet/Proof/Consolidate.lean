import OpenPCC.Wallet.Consolidate

/-!
# Consolidated accounts are never complete

`CreateIntents` gives every intent the index 1, because it never advances `lastGroupIndex`. A group
whose last repetition has the index 1 is complete with two different indices, and there is only one:
`DedupeAccounts` sends no account while its input is open. The accounts are handed over as they
should be only if there is none to hand over.
-/

namespace Wallet.Consolidate

open Go Delivery

variable {σ : Type} {balance : σ → Int} {accountFunc : Nat → Option Err} {targetBalance : Int}

/-! ## The intents -/

theorem index_createLoop {acc : Nat} {virtualBalance : Int} {vals : List σ} :
    ∀ intent ∈ (createLoop balance accountFunc targetBalance acc virtualBalance 0 vals).1,
      intent.target.index = 1 := by
  induction vals generalizing acc virtualBalance with
  | nil => exact fun intent h => absurd h List.not_mem_nil
  | cons val vals ih =>
    intro intent hmem
    simp only [createLoop] at hmem
    split at hmem
    · split at hmem
      · rw [List.mem_singleton.1 hmem]
        rfl
      · obtain rfl | hmem := List.mem_cons.1 hmem
        · rfl
        · exact ih intent hmem
    · obtain rfl | hmem := List.mem_cons.1 hmem
      · rfl
      · exact ih intent hmem

theorem index_createIntents {vals : List σ} :
    ∀ intent ∈ (createIntents balance accountFunc targetBalance vals).1,
      intent.target.index = 1 := by
  intro intent hmem
  rw [createIntents] at hmem
  split at hmem
  · cases hmem
  · exact index_createLoop intent hmem

theorem head_mem_createLoop {acc : Nat} {virtualBalance : Int} {val : σ} {vals : List σ} :
    ⟨val, ⟨acc, 0 + 1, max 1 targetBalance ≤ int64 (virtualBalance + balance val)⟩⟩ ∈
      (createLoop balance accountFunc targetBalance acc virtualBalance 0 (val :: vals)).1 := by
  simp only [createLoop]
  split
  · split <;> exact List.mem_cons_self
  · exact List.mem_cons_self

theorem createLoop_of_low {acc : Nat} {virtualBalance : Int} {val : σ} {vals : List σ}
    (hlow : ¬ max 1 targetBalance ≤ int64 (virtualBalance + balance val)) :
    (createLoop balance accountFunc targetBalance acc virtualBalance 0 (val :: vals)).1 =
      ⟨val, ⟨acc, 0 + 1, false⟩⟩ :: (createLoop balance accountFunc targetBalance acc
        (int64 (virtualBalance + balance val)) 0 vals).1 := by
  simp [createLoop, hlow]

/-- An intent is marked as the last one when the balance reaches the target. -/
theorem last_createLoop_iff {acc : Nat} {virtualBalance : Int} {vals : List σ}
    (hlow : int64 virtualBalance < max 1 targetBalance) :
    (∀ intent ∈ (createLoop balance accountFunc targetBalance acc virtualBalance 0 vals).1,
        intent.target.last = false) ↔
      ∀ n, int64 (virtualBalance + ((vals.take n).map balance).sum) < max 1 targetBalance := by
  induction vals generalizing virtualBalance with
  | nil => simpa [createLoop] using hlow
  | cons val vals ih =>
    have hsplit : (∀ n, int64 (virtualBalance + (((val :: vals).take n).map balance).sum) <
          max 1 targetBalance) ↔
        ∀ n, int64 (int64 (virtualBalance + balance val) + ((vals.take n).map balance).sum) <
          max 1 targetBalance := by
      constructor
      · intro h n
        have hn := h (n + 1)
        rwa [List.take_succ_cons, List.map_cons, List.sum_cons, ← add_assoc,
          ← int64_int64_add] at hn
      · intro h n
        cases n with
        | zero => simpa using hlow
        | succ n =>
          rw [List.take_succ_cons, List.map_cons, List.sum_cons, ← add_assoc, ← int64_int64_add]
          exact h n
    rw [hsplit]
    by_cases hlast : max 1 targetBalance ≤ int64 (virtualBalance + balance val)
    · refine iff_of_false (fun h => ?_) fun h => ?_
      · exact absurd hlast (of_decide_eq_false (h _ head_mem_createLoop))
      · have hzero := h 0
        rw [List.take_zero, List.map_nil, List.sum_nil, add_zero, int64_int64] at hzero
        exact absurd hzero (not_lt.2 hlast)
    · rw [← ih (by rwa [int64_int64, ← not_le]), createLoop_of_low hlast, List.forall_mem_cons,
        and_iff_right rfl]

theorem last_createIntents_iff {vals : List σ} :
    (∀ intent ∈ (createIntents balance accountFunc targetBalance vals).1,
        intent.target.last = false) ↔
      (accountFunc 0 = none →
        ∀ n, int64 ((vals.take n).map balance).sum < max 1 targetBalance) := by
  rw [createIntents]
  split
  · next hfail => simp [hfail]
  · next hok =>
    have hzero : int64 0 < max 1 targetBalance := lt_of_lt_of_le (by decide) (le_max_left ..)
    rw [last_createLoop_iff hzero, hok]
    simp

/-! ## The groups -/

/-- What the repetitions with the index 1 leave. -/
structure Lone (g : RepResults) : Prop where
  seen : g.seen ⊆ {1}
  groupLen : g.groupLen = none ∨ g.groupLen = some 2

theorem Lone.add {g : RepResults} (h : Lone g) {rep : Rep Nat} (hrep : rep.index = 1) :
    Lone (g.add rep) where
  seen := by
    rw [RepResults.add, hrep]
    exact Finset.insert_subset (Finset.mem_singleton_self 1) h.seen
  groupLen := by
    rw [RepResults.add, hrep]
    split
    · exact .inr rfl
    · exact h.groupLen

theorem Lone.complete {g : RepResults} (h : Lone g) : g.complete = false := by
  have hcard : g.seen.card ≤ 1 := Finset.card_le_card h.seen
  rw [RepResults.complete]
  obtain hlen | hlen := h.groupLen
  · rw [hlen]
  · rw [hlen]
    exact decide_eq_false (by omega)

theorem dedupeAccounts_eq {results : AList fun _ : Nat => RepResults} {reps : List (Rep Nat)}
    (hreps : ∀ rep ∈ reps, rep.index = 1)
    (hresults : ∀ acc g, results.lookup acc = some g → Lone g) :
    dedupeAccounts results reps = reps.map fun _ => none := by
  induction reps generalizing results with
  | nil => rfl
  | cons rep reps ih =>
    obtain ⟨hrep, hrest⟩ := List.forall_mem_cons.1 hreps
    have hgroup : Lone (((results.lookup rep.key).getD {}).add rep) := by
      refine Lone.add ?_ hrep
      cases hlookup : results.lookup rep.key with
      | none => exact ⟨Finset.empty_subset _, .inl rfl⟩
      | some g => exact hresults rep.key g hlookup
    have hcollect : collect results rep =
        (results.insert rep.key (((results.lookup rep.key).getD {}).add rep), false) := by
      rw [collect, hgroup.complete]
      rfl
    rw [dedupeAccounts, hcollect, List.map_cons]
    refine List.cons_eq_cons.2 ⟨rfl, ih hrest fun acc g hlookup => ?_⟩
    by_cases hacc : acc = rep.key
    · rw [hacc, AList.lookup_insert, Option.some.injEq] at hlookup
      exact hlookup ▸ hgroup
    · rw [AList.lookup_insert_ne hacc] at hlookup
      exact hresults acc g hlookup

theorem sent_eq {intents : List (ConsolidateIntent σ)}
    (hindex : ∀ intent ∈ intents, intent.target.index = 1) {order : List Nat}
    (horder : IsOrder intents order) : sent intents order = order.map fun _ => none := by
  have hreps : ∀ rep ∈ order.filterMap (fun j => intents[j]?.map (·.target)), rep.index = 1 := by
    intro rep hrep
    obtain ⟨j, -, hj⟩ := List.mem_filterMap.1 hrep
    obtain ⟨intent, hintent, rfl⟩ := Option.map_eq_some_iff.1 hj
    exact hindex intent (List.mem_of_getElem? hintent)
  have hlen : (order.filterMap fun j => intents[j]?.map (·.target)).length = order.length := by
    rw [List.length_filterMap_eq_countP, List.countP_eq_length]
    intro j hj
    rw [List.getElem?_eq_getElem (horder.2 j hj)]
    rfl
  rw [sent, dedupeAccounts_eq hreps (fun acc g h => by cases h), List.map_const', List.map_const',
    hlen]

theorem mem_group {intents : List (ConsolidateIntent σ)} {acc j : Nat} :
    j ∈ group intents acc ↔ ∃ intent, intents[j]? = some intent ∧ intent.target.key = acc := by
  rw [group, List.mem_filter, List.mem_range, decide_eq_true_eq, Option.map_eq_some_iff]
  exact and_iff_right_of_imp fun ⟨_, hintent, _⟩ => (List.getElem?_eq_some_iff.1 hintent).1

/-- If no account is sent, they are handed over in every order exactly if none has to be. -/
theorem handedOver_iff {intents : List (ConsolidateIntent σ)}
    (hindex : ∀ intent ∈ intents, intent.target.index = 1) :
    (∀ order, IsOrder intents order → HandedOver intents order) ↔
      ∀ intent ∈ intents, intent.target.last = false := by
  constructor
  · intro h intent hintent
    by_contra hlast
    have hclosed : IsClosed intents intent.target.key :=
      ⟨intent, hintent, rfl, Bool.eq_true_of_not_eq_false hlast⟩
    -- all transfers are completed, in the order of their intents
    have horder : IsOrder intents (List.range intents.length) :=
      ⟨List.nodup_range, fun j hj => List.mem_range.1 hj⟩
    obtain ⟨j₀, hj₀⟩ := List.getElem?_of_mem hintent
    have hne : group intents intent.target.key ≠ [] :=
      List.ne_nil_of_mem (mem_group.2 ⟨intent, hj₀, rfl⟩)
    have hsub : group intents intent.target.key ⊆ List.range intents.length :=
      List.filter_sublist.subset
    obtain ⟨i, ⟨j, hj, hcompletes⟩, -⟩ := existsUnique_completes hne hsub
    obtain ⟨intent', hintent', hkey⟩ := mem_group.1 hcompletes.mem
    have hsent := h _ horder i j intent' hj hintent'
    rw [hkey, if_pos ⟨hclosed, hcompletes⟩, sent_eq hindex horder, List.getElem?_map, hj] at hsent
    cases hsent
  · intro hlast order horder i j intent hj _
    have hopen : ¬ IsClosed intents intent.target.key := by
      rintro ⟨intent', hmem, -, htrue⟩
      rw [hlast intent' hmem] at htrue
      cases htrue
    rw [if_neg (fun h => hopen h.1), sent_eq hindex horder, List.getElem?_map, hj]
    rfl

theorem consolidate_handsOver_iff (balance : σ → Int) (accountFunc : Nat → Option Err)
    (targetBalance : Int) (vals : List σ) :
    (∀ order, IsOrder (createIntents balance accountFunc targetBalance vals).1 order →
        HandedOver (createIntents balance accountFunc targetBalance vals).1 order) ↔
      (accountFunc 0 = none →
        ∀ n, int64 ((vals.take n).map balance).sum < max 1 targetBalance) :=
  (handedOver_iff index_createIntents).trans last_createIntents_iff

/-- One value with the balance of the target. -/
theorem consolidate_never_sent :
    (createIntents id (fun _ => none) 10 [10]).1 = [⟨10, ⟨0, 1, true⟩⟩] ∧
      sent (createIntents id (fun _ => none) 10 [10]).1 [0] = [none] ∧
      ¬ HandedOver (createIntents id (fun _ => none) 10 [10]).1 [0] := by
  refine ⟨by decide, by decide, fun h => ?_⟩
  have hsent := h 0 0 ⟨10, ⟨0, 1, true⟩⟩ rfl (by decide)
  revert hsent
  decide

end Wallet.Consolidate
