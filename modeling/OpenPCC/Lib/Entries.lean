import Mathlib.Data.List.Basic

/-!
# Lists of numbered entries

What the entries of a list are after one is added at the end or replaced.
-/

namespace Entries

variable {α : Type*} {l : List α} {i : Nat} {x : α}

theorem getElem?_concat (l : List α) (y : α) (j : Nat) :
    (l ++ [y])[j]? = if j = l.length then some y else l[j]? := by
  split
  · next hj => rw [hj, List.getElem?_concat_length]
  · next hj =>
    rcases Nat.lt_or_gt_of_ne hj with hlt | hgt
    · rw [List.getElem?_append_left hlt]
    · have hlen : (l ++ [y]).length ≤ j := by rwa [List.length_append]
      rw [List.getElem?_eq_none hlen, List.getElem?_eq_none (Nat.le_of_lt hgt)]

theorem getElem?_set (h : l[i]? = some x) (y : α) (j : Nat) :
    (l.set i y)[j]? = if j = i then some y else l[j]? := by
  obtain ⟨hi, -⟩ := List.getElem?_eq_some_iff.1 h
  rw [List.getElem?_set, if_pos hi]
  exact if_congr eq_comm rfl rfl

theorem getElem?_modify (h : l[i]? = some x) (f : α → α) (j : Nat) :
    (l.modify i f)[j]? = if j = i then some (f x) else l[j]? := by
  by_cases hj : j = i
  · rw [hj, List.getElem?_modify_eq, h, if_pos rfl]
    rfl
  · rw [List.getElem?_modify_ne f l (Ne.symm hj), if_neg hj]

end Entries
