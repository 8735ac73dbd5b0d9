import Mathlib.Data.List.Basic
import Mathlib.Data.Nat.Find

/-!
# Collecting the parts of a whole

The parts `parts` of a whole arrive one by one, in any order and some of them again. The whole is
complete with the arrival of the last part that was missing (`Completes`), and this happens exactly
once in a sequence in which all parts arrive (`existsUnique_completes`).
-/

namespace Delivery

variable {α : Type}

/-- With `x`, which arrives after `before`, all parts have arrived, and not without it. -/
def Completes (parts before : List α) (x : α) : Prop :=
  parts ⊆ before ++ [x] ∧ ¬ parts ⊆ before

instance [DecidableEq α] (parts before : List α) (x : α) :
    Decidable (Completes parts before x) :=
  inferInstanceAs (Decidable (_ ∧ _))

theorem Completes.mem {parts before : List α} {x : α} (h : Completes parts before x) :
    x ∈ parts := by
  by_contra hx
  refine h.2 fun y hy => ?_
  obtain hmem | hmem := List.mem_append.1 (h.1 hy)
  · exact hmem
  · rw [List.mem_singleton.1 hmem] at hy
    exact absurd hy hx

/-- If all parts arrive, one arrival completes the whole, and only one. -/
theorem existsUnique_completes {parts l : List α} (hne : parts ≠ []) (hl : parts ⊆ l) :
    ∃! i, ∃ x, l[i]? = some x ∧ Completes parts (l.take i) x := by
  classical
  -- the first moment at which everything is there
  have hall : ∃ n, parts ⊆ l.take n := ⟨l.length, by rwa [List.take_length]⟩
  obtain ⟨n, hn, hmin⟩ : ∃ n, parts ⊆ l.take n ∧ ∀ k, k < n → ¬ parts ⊆ l.take k :=
    ⟨Nat.find hall, Nat.find_spec hall, fun _ => Nat.find_min hall⟩
  cases n with
  | zero =>
    rw [List.take_zero] at hn
    exact absurd (List.eq_nil_of_subset_nil hn) hne
  | succ i =>
    have hi : i < l.length := by
      by_contra hlen
      refine hmin i (Nat.lt_succ_self i) ?_
      rwa [List.take_of_length_le (by omega)] at hn ⊢
    have htake : l.take (i + 1) = l.take i ++ [l[i]] := List.take_succ_eq_append_getElem hi
    refine ⟨i, ⟨l[i], List.getElem?_eq_getElem hi, ?_, hmin i (Nat.lt_succ_self i)⟩, ?_⟩
    · rwa [htake] at hn
    · rintro j ⟨x, hx, hcomplete, hnot⟩
      obtain ⟨hj, rfl⟩ := List.getElem?_eq_some_iff.1 hx
      rw [← List.take_succ_eq_append_getElem hj] at hcomplete
      have hmono : ∀ {a b : Nat}, a ≤ b → l.take a ⊆ l.take b := fun hab =>
        (List.take_prefix_take_left hab).subset
      by_contra hne
      rcases Nat.lt_or_gt_of_ne hne with hlt | hgt
      · exact hmin (j + 1) (by omega) hcomplete
      · exact hnot (List.Subset.trans hn (hmono hgt))

end Delivery
