import Mathlib.Algebra.BigOperators.Group.Multiset.Basic
import Mathlib.Algebra.Order.Group.Multiset

/-!
# Lists as bags

How the multiset of a list changes when an element is appended or taken out at an index.
-/

namespace Bag

variable {α : Type*}

theorem coe_append_singleton (l : List α) (x : α) :
    ((l ++ [x] : List α) : Multiset α) = {x} + (l : Multiset α) := by
  rw [← Multiset.coe_add, add_comm]
  rfl

theorem coe_eraseIdx {l : List α} {i : Nat} {x : α} (h : l[i]? = some x) :
    (l : Multiset α) = {x} + (l.eraseIdx i : List α) := by
  obtain ⟨hi, rfl⟩ := List.getElem?_eq_some_iff.1 h
  rw [Multiset.singleton_add, Multiset.cons_coe, Multiset.coe_eq_coe]
  exact (List.getElem_cons_eraseIdx_perm hi).symm

theorem mem_iff_eraseIdx {l : List α} {i : Nat} {x : α} (h : l[i]? = some x) {y : α} :
    y ∈ l ↔ y = x ∨ y ∈ l.eraseIdx i := by
  rw [← Multiset.mem_coe, coe_eraseIdx h, Multiset.mem_add, Multiset.mem_singleton,
    Multiset.mem_coe]

theorem coe_map_eraseIdx {β : Type*} {l : List α} {i : Nat} {x : α} (h : l[i]? = some x)
    (f : α → β) : (l.map f : Multiset β) = {f x} + ((l.eraseIdx i).map f : List β) := by
  rw [← Multiset.map_coe, coe_eraseIdx h, Multiset.map_add, Multiset.map_singleton,
    Multiset.map_coe]

theorem sum_map_eraseIdx {M : Type*} [AddCommMonoid M] {l : List α} {i : Nat} {x : α}
    (h : l[i]? = some x) (f : α → M) : (l.map f).sum = f x + ((l.eraseIdx i).map f).sum := by
  rw [← Multiset.sum_coe, coe_map_eraseIdx h, Multiset.sum_add, Multiset.sum_singleton,
    Multiset.sum_coe]

/-- How a sum changes when an element is replaced. -/
theorem sum_map_set {M : Type*} [AddCommMonoid M] {l : List α} {i : Nat} {x : α}
    (h : l[i]? = some x) (y : α) (f : α → M) :
    ((l.set i y).map f).sum + f x = (l.map f).sum + f y := by
  obtain ⟨hi, -⟩ := List.getElem?_eq_some_iff.1 h
  have hset : (l.set i y)[i]? = some y := by rw [List.getElem?_set_self hi]
  rw [sum_map_eraseIdx hset, sum_map_eraseIdx h, List.eraseIdx_set_eq]
  exact (add_right_comm _ _ _).trans ((add_assoc _ _ _).trans (add_comm _ _))

theorem sum_map_set_eq {M : Type*} [AddCommGroup M] {l : List α} {i : Nat} {x : α}
    (h : l[i]? = some x) (y : α) (f : α → M) :
    ((l.set i y).map f).sum = (l.map f).sum - f x + f y := by
  rw [sub_add_eq_add_sub, eq_sub_iff_add_eq, sum_map_set h]

theorem countP_set {l : List α} {i : Nat} {x : α} (h : l[i]? = some x) (y : α) (p : α → Bool) :
    (l.set i y).countP p + (if p x then 1 else 0) = l.countP p + if p y then 1 else 0 := by
  obtain ⟨hi, rfl⟩ := List.getElem?_eq_some_iff.1 h
  have hpos : p l[i] = true → 0 < l.countP p :=
    fun hp => List.countP_pos_iff.2 ⟨l[i], List.getElem_mem hi, hp⟩
  rw [List.countP_set hi]
  split <;> split <;> simp_all

theorem countP_set_toInt {l : List α} {i : Nat} {x : α} (h : l[i]? = some x) (y : α)
    (p : α → Bool) :
    ((l.set i y).countP p : Int) + (p x).toInt = l.countP p + (p y).toInt := by
  have hset := countP_set h y p
  cases hx : p x <;> cases hy : p y <;> (simp_all; try omega)

theorem countP_eraseIdx {l : List α} {i : Nat} {x : α} (h : l[i]? = some x) (p : α → Bool) :
    l.countP p = (if p x then 1 else 0) + (l.eraseIdx i).countP p := by
  obtain ⟨hi, rfl⟩ := List.getElem?_eq_some_iff.1 h
  rw [← (List.getElem_cons_eraseIdx_perm hi).countP_eq p, List.countP_cons, add_comm]

end Bag
