import Mathlib.Data.List.Perm.Subperm
import OpenPCC.Wallet.Rep

/-!
# Groups of repetitions

In a group the indices are different, and the repetition that is marked as the last one has the
greatest of them (`IsGroup`). The results of repetitions of a group are complete exactly when the
last one is there and all others are (`IsGroup.complete_iff`), whatever the order in which they
arrived.
-/

namespace Wallet

variable {κ : Type} {reps group : List (Rep κ)}

/-- The results of the repetitions that have arrived. -/
def RepResults.of (reps : List (Rep κ)) : RepResults :=
  reps.foldl (fun g rep => g.add rep) {}

namespace RepResults

@[simp]
theorem of_append_singleton (reps : List (Rep κ)) (rep : Rep κ) :
    of (reps ++ [rep]) = (of reps).add rep := by
  rw [of, List.foldl_concat]
  rfl

theorem seen_of (reps : List (Rep κ)) : (of reps).seen = (reps.map (·.index)).toFinset := by
  induction reps using List.reverseRecOn with
  | nil => rfl
  | append_singleton reps rep ih => simp [add, ih]

theorem groupLen_of {len : Int} (hlast : ∀ rep ∈ reps, rep.last = true → rep.index + 1 = len) :
    (of reps).groupLen = if ∃ rep ∈ reps, rep.last = true then some len else none := by
  induction reps using List.reverseRecOn with
  | nil => rfl
  | append_singleton reps rep ih =>
    have ih := ih fun r hr => hlast r (List.mem_append_left _ hr)
    rw [of_append_singleton, add, ih]
    cases hrep : rep.last with
    | false => simp [hrep, or_and_right, exists_or]
    | true =>
      have hmem : ∃ r ∈ reps ++ [rep], r.last = true := ⟨rep, by simp, hrep⟩
      rw [if_pos rfl, if_pos hmem, hlast rep (by simp) hrep]

end RepResults

structure IsGroup (group : List (Rep κ)) : Prop where
  nodup : (group.map (·.index)).Nodup
  last : ∀ rep ∈ group, rep.last = true → rep.index + 1 = group.length

theorem IsGroup.complete_iff (h : IsGroup group) (hreps : reps.Subperm group) :
    (RepResults.of reps).complete = true ↔
      (∃ rep ∈ group, rep.last = true) ∧ reps.length = group.length := by
  have hsub := hreps.subset
  have hcard : (RepResults.of reps).seen.card = reps.length := by
    obtain ⟨reps', hperm, hsublist⟩ := hreps
    have hnodup : (reps.map (·.index)).Nodup :=
      (hperm.map _).nodup_iff.1 (h.nodup.sublist (hsublist.map _))
    rw [RepResults.seen_of, List.toFinset_card_of_nodup hnodup, List.length_map]
  have hlen := RepResults.groupLen_of fun rep hrep => h.last rep (hsub hrep)
  rw [RepResults.complete, hlen, hcard]
  split
  · next hnone =>
    rw [ite_eq_right_iff] at hnone
    refine iff_of_false Bool.false_ne_true ?_
    rintro ⟨⟨rep, hrep, hlast⟩, heq⟩
    -- everything is there, and so is the last one
    have hmem : rep ∈ reps := (hreps.perm_of_length_le heq.ge).mem_iff.2 hrep
    cases hnone ⟨rep, hmem, hlast⟩
  · next groupLen hsome =>
    obtain ⟨⟨rep, hrep, hlast⟩, heq⟩ := (Option.ite_none_right_eq_some ..).1 hsome
    rw [decide_eq_true_eq, ← Option.some.inj heq, Nat.cast_inj]
    exact (and_iff_right ⟨rep, hsub hrep, hlast⟩).symm

/-! ## Collecting -/

section
variable [DecidableEq κ] (results : AList fun _ : κ => RepResults) (rep : Rep κ)

theorem snd_collect :
    (collect results rep).2 = (((results.lookup rep.key).getD {}).add rep).complete := by
  rw [collect]
  split
  · next h => exact h.symm
  · next h => exact (Bool.eq_false_of_not_eq_true h).symm

theorem lookup_collect (k : κ) :
    (collect results rep).1.lookup k =
      if k = rep.key then
        if (((results.lookup rep.key).getD {}).add rep).complete then none
        else some (((results.lookup rep.key).getD {}).add rep)
      else results.lookup k := by
  rw [collect]
  by_cases hk : k = rep.key
  · rw [if_pos hk, hk]
    split
    · exact AList.lookup_erase _ _
    · exact AList.lookup_insert _
  · rw [if_neg hk]
    split
    · exact AList.lookup_erase_ne hk
    · exact AList.lookup_insert_ne hk

end

end Wallet
