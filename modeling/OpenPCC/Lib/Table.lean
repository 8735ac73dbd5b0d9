import Mathlib.Algebra.Order.BigOperators.Group.List
import Mathlib.Data.List.AList

/-!
# Sums over finite tables

`AList.total f m` adds up `f` over the values of a table. Inserting a value changes the total by
the new value less the one it replaces (`AList.total_insert`), and a value is at most the total
when nothing is negative (`AList.le_total`).
-/

variable {α β M : Type}

/-- The sum of `f` over the values of `m`. -/
def AList.total [AddMonoid M] (f : β → M) (m : AList fun _ : α => β) : M :=
  (m.entries.map fun e => f e.2).sum

section
variable [DecidableEq α] [AddCommGroup M] (f : β → M)

theorem List.sum_map_kerase (k : α) (l : List (Σ _ : α, β)) :
    ((l.kerase k).map fun e => f e.2).sum =
      (l.map fun e => f e.2).sum - (l.dlookup k).elim 0 f := by
  induction l with
  | nil => simp
  | cons e l ih =>
    by_cases h : k = e.1
    · subst h
      rw [List.kerase_cons_eq rfl, List.dlookup_cons_eq, List.map_cons, List.sum_cons]
      exact (add_sub_cancel_left _ _).symm
    · rw [List.kerase_cons_ne h, List.dlookup_cons_ne _ _ h, List.map_cons, List.map_cons,
        List.sum_cons, List.sum_cons, ih, add_sub_assoc]

theorem AList.total_insert (m : AList fun _ : α => β) (k : α) (v : β) :
    (m.insert k v).total f = m.total f - (m.lookup k).elim 0 f + f v := by
  unfold AList.total
  rw [AList.entries_insert, List.map_cons, List.sum_cons, List.sum_map_kerase]
  exact add_comm _ _

end

section
variable [DecidableEq α] [AddCommMonoid M] [PartialOrder M] [IsOrderedAddMonoid M] {f : β → M}
  {m : AList fun _ : α => β}

omit [IsOrderedAddMonoid M] in
theorem AList.forall_entries_nonneg (h : ∀ k v, m.lookup k = some v → 0 ≤ f v) :
    ∀ x ∈ m.entries.map fun e => f e.2, 0 ≤ x := by
  simp only [List.mem_map, forall_exists_index, and_imp]
  rintro x e he rfl
  exact h e.1 e.2 (AList.mem_lookup_iff.2 he)

theorem AList.total_nonneg (h : ∀ k v, m.lookup k = some v → 0 ≤ f v) : 0 ≤ m.total f :=
  List.sum_nonneg (AList.forall_entries_nonneg h)

theorem AList.le_total (h : ∀ k v, m.lookup k = some v → 0 ≤ f v) {k : α} {v : β}
    (hv : m.lookup k = some v) : f v ≤ m.total f := by
  have hmem : (⟨k, v⟩ : Σ _ : α, β) ∈ m.entries := AList.mem_lookup_iff.1 hv
  exact List.single_le_sum (AList.forall_entries_nonneg h) (f v)
    (List.mem_map_of_mem (f := fun e : (Σ _ : α, β) => f e.2) hmem)

end
