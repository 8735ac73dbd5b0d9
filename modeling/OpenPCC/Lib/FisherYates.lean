import Mathlib.Data.Fintype.BigOperators
import Mathlib.Data.Nat.Factorial.BigOperators
import Mathlib.Data.Set.Function

/-!
# The Fisher–Yates shuffle

`shuffle j i a` swaps each of the places `i`, `i - 1`, ..., 1 of an array with a place that is not
behind it. A step fixes what stands at its place for the rest of the steps
(`getElem?_shuffle_last`), so the result tells the choices (`shuffle_inj`), and every permutation of
the array can be reached (`exists_shuffle_eq`). There is one sequence of choices for each
permutation (`bijOn_shuffle`).
-/

theorem Array.swapIfInBounds_perm {α : Type} (a : Array α) (i j : Nat) :
    (a.swapIfInBounds i j).Perm a := by
  rw [Array.swapIfInBounds_def]
  split
  · split
    · exact Array.swap_perm _ _
    · exact Array.Perm.refl _
  · exact Array.Perm.refl _

namespace FisherYates

variable {α : Type} {j j' : (i : Nat) → Fin (i + 1)} {i k : Nat} {a b : Array α}

/-- The place `i` is swapped with the place `j i`, from the place `i` down to the second one. -/
def shuffle (j : (i : Nat) → Fin (i + 1)) : Nat → Array α → Array α
  | 0, a => a
  | i + 1, a => shuffle j i (a.swapIfInBounds (i + 1) (j (i + 1)))

theorem shuffle_perm (j : (i : Nat) → Fin (i + 1)) (i : Nat) (a : Array α) :
    (shuffle j i a).Perm a := by
  induction i generalizing a with
  | zero => exact Array.Perm.refl a
  | succ i ih => exact (ih _).trans (a.swapIfInBounds_perm _ _)

/-- The choices up to the place `i` are read. -/
theorem shuffle_congr (h : ∀ k, 0 < k → k ≤ i → j k = j' k) (a : Array α) :
    shuffle j i a = shuffle j' i a := by
  induction i generalizing a with
  | zero => rfl
  | succ i ih =>
    rw [shuffle, shuffle, h (i + 1) (Nat.succ_pos i) le_rfl]
    exact ih (fun k hk hki => h k hk (Nat.le_succ_of_le hki)) _

theorem getElem?_swap_of_lt {x y : Nat} (hx : x < k) (hy : y < k) (a : Array α) :
    (a.swapIfInBounds x y)[k]? = a[k]? := by
  rw [Array.swapIfInBounds_def]
  split
  · split
    · rw [Array.getElem?_swap, if_neg (by omega), if_neg (by omega)]
    · rfl
  · rfl

theorem getElem?_swap_left {x y : Nat} (hx : x < a.size) (hy : y < a.size) :
    (a.swapIfInBounds x y)[x]? = a[y]? := by
  rw [Array.swapIfInBounds_def, dif_pos hx, dif_pos hy, Array.getElem?_swap]
  split
  · next h => simp [h, hx]
  · rw [if_pos rfl, Array.getElem?_eq_getElem hy]

theorem getElem?_shuffle_of_lt (h : i < k) (a : Array α) : (shuffle j i a)[k]? = a[k]? := by
  induction i generalizing a with
  | zero => rfl
  | succ i ih =>
    rw [shuffle, ih (by omega)]
    exact getElem?_swap_of_lt h (by omega) a

theorem getElem?_shuffle_last (h : i + 1 < a.size) :
    (shuffle j (i + 1) a)[i + 1]? = a[(j (i + 1)).val]? := by
  rw [shuffle, getElem?_shuffle_of_lt (Nat.lt_succ_self i)]
  exact getElem?_swap_left h (by omega)

/-! ## Injectivity -/

theorem eq_of_getElem?_eq (ha : a.toList.Nodup) {x y : Nat} (hx : x < a.size)
    (h : a[x]? = a[y]?) : x = y := by
  rw [← Array.getElem?_toList, ← Array.getElem?_toList] at h
  exact (List.getElem?_inj hx ha).1 h

theorem nodup_of_perm (ha : a.toList.Nodup) (h : b.Perm a) : b.toList.Nodup :=
  (Array.perm_iff_toList_perm.1 h).nodup_iff.2 ha

theorem shuffle_inj (ha : a.toList.Nodup) (hi : i < a.size)
    (h : shuffle j i a = shuffle j' i a) : ∀ k, 0 < k → k ≤ i → j k = j' k := by
  induction i generalizing a with
  | zero => exact fun k hk hki => absurd hk (Nat.not_lt.2 hki)
  | succ i ih =>
    have hlast : j (i + 1) = j' (i + 1) := by
      have heq := congrArg (·[i + 1]?) h
      simp only [getElem?_shuffle_last hi] at heq
      exact Fin.ext (eq_of_getElem?_eq ha (by omega) heq)
    rw [shuffle, shuffle, hlast] at h
    have hrest := ih (nodup_of_perm ha (a.swapIfInBounds_perm _ _))
      (by rw [Array.size_swapIfInBounds]; omega) h
    intro k hk hki
    obtain rfl | hlt := Nat.eq_or_lt_of_le hki
    · exact hlast
    · exact hrest k hk (Nat.le_of_lt_succ hlt)

/-! ## Surjectivity -/

theorem eq_of_perm_of_tail {l m : List α} (h : l.Perm m) (htail : ∀ k, l[k + 1]? = m[k + 1]?) :
    l = m := by
  cases l with
  | nil => exact h.nil_eq
  | cons x l =>
    cases m with
    | nil => exact absurd h.symm.nil_eq (List.cons_ne_nil x l).symm
    | cons y m =>
      have heq : l = m := List.ext_getElem? htail
      subst heq
      have hperm : ([x] ++ l).Perm ([y] ++ l) := h
      rw [List.perm_append_right_iff, List.singleton_perm_singleton] at hperm
      rw [hperm]

theorem exists_shuffle_eq (ha : a.toList.Nodup) (hi : i < a.size) (h : b.Perm a)
    (hrest : ∀ k, i < k → b[k]? = a[k]?) : ∃ j, shuffle j i a = b := by
  -- by induction on the place: what `b` has there is brought there, and stays
  induction i generalizing a with
  | zero =>
    have heq : b.toList = a.toList :=
      eq_of_perm_of_tail (Array.perm_iff_toList_perm.1 h) fun k => by
        simpa using hrest (k + 1) (Nat.succ_pos k)
    exact ⟨fun _ => 0, (Array.toList_inj.1 heq).symm⟩
  | succ i ih =>
    have hb : i + 1 < b.size := by rwa [h.size_eq]
    have hmem : b[i + 1] ∈ a := h.mem_iff.1 (Array.getElem_mem hb)
    obtain ⟨y, hy, heq⟩ := Array.getElem_of_mem hmem
    have heq : b[i + 1]? = a[y]? := by
      rw [Array.getElem?_eq_getElem hb, Array.getElem?_eq_getElem hy, heq]
    have hle : y < i + 2 := by
      by_contra hlt
      have hsame : b[i + 1]? = b[y]? := by rw [heq, hrest y (by omega)]
      have := eq_of_getElem?_eq (nodup_of_perm ha h) hb hsame
      omega
    obtain ⟨j, hj⟩ := ih (nodup_of_perm ha (a.swapIfInBounds_perm (i + 1) y))
      (by rw [Array.size_swapIfInBounds]; omega)
      (h.trans (a.swapIfInBounds_perm (i + 1) y).symm) (fun k hk => by
        obtain rfl | hlt := Nat.eq_or_lt_of_le (Nat.succ_le_of_lt hk)
        · rw [heq, getElem?_swap_left hi hy]
        · rw [hrest k hlt, getElem?_swap_of_lt hlt (by omega)])
    refine ⟨Function.update j (i + 1) ⟨y, hle⟩, ?_⟩
    rw [shuffle, Function.update_self, ← hj]
    exact shuffle_congr (fun k _ hki =>
      Function.update_of_ne (Nat.ne_of_lt (Nat.lt_succ_of_le hki)) _ _) _

/-! ## One sequence of choices for each permutation -/

/-- A choice for each place of `n` but the first one. -/
abbrev Choices (n : Nat) := (i : Fin (n - 1)) → Fin (i.val + 2)

/-- The choice for a place. -/
def Choices.place {n : Nat} (c : Choices n) : (i : Nat) → Fin (i + 1)
  | 0 => 0
  | i + 1 => if h : i < n - 1 then c ⟨i, h⟩ else 0

theorem bijOn_shuffle (ha : a.toList.Nodup) :
    Set.BijOn (fun c : Choices a.size => shuffle c.place (a.size - 1) a) Set.univ
      {b | b.Perm a} := by
  refine ⟨fun c _ => shuffle_perm _ _ _, fun c _ c' _ heq => ?_, fun b hb => ?_⟩
  · funext i
    have hi := i.isLt
    have hplace := shuffle_inj ha (by omega) heq (i + 1) (Nat.succ_pos i) (by omega)
    simpa only [Choices.place, hi, dif_pos] using hplace
  · have hbsize : b.size = a.size := Array.Perm.size_eq hb
    by_cases hsize : a.size = 0
    · obtain rfl := Array.eq_empty_of_size_eq_zero hsize
      obtain rfl := Array.eq_empty_of_size_eq_zero hbsize
      exact ⟨fun i => 0, trivial, rfl⟩
    · obtain ⟨j, hj⟩ := exists_shuffle_eq (i := a.size - 1) ha (by omega) hb (fun k hk => by
        rw [Array.getElem?_eq_none (by omega), Array.getElem?_eq_none (by omega)])
      refine ⟨fun i => j (i + 1), trivial, ?_⟩
      rw [← hj]
      refine shuffle_congr (fun k hk hki => ?_) a
      obtain ⟨k, rfl⟩ := Nat.exists_eq_add_one.2 hk
      exact dif_pos (by omega)

theorem card_choices (n : Nat) : Fintype.card (Choices n) = n.factorial := by
  rw [Fintype.card_pi]
  simp only [Fintype.card_fin]
  rw [Fin.prod_univ_eq_prod_range (fun i => i + 2) (n - 1)]
  cases n with
  | zero => rfl
  | succ n =>
    rw [Nat.add_sub_cancel, ← Finset.prod_range_add_one_eq_factorial, Finset.prod_range_succ',
      Nat.zero_add, Nat.mul_one]

end FisherYates
