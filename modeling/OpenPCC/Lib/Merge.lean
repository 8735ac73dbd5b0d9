import Mathlib.Data.Finset.Card
import Mathlib.Data.List.AList

/-!
# Merging into a table

A table is updated in place at a key, or merged with another table entry by entry; the result
says which keys were new and which entries changed. `Merged` is the table with this summary;
`Table.upsert` and `Table.mergeWith` are the two ways to get one. Only the key sets matter here:
both add a set of keys, report keys of that set only, and report exactly those that were not there
as new (`Touches`).
-/

namespace Table

variable {K V : Type} [DecidableEq K] {t : AList fun _ : K => V} {k : K}

/-- The set of keys of a table. -/
def keySet (t : AList fun _ : K => V) : Finset K := t.keys.toFinset

theorem mem_keySet : k ∈ keySet t ↔ k ∈ t := List.mem_toFinset

theorem keySet_insert (v : V) : keySet (t.insert k v) = insert k (keySet t) := by
  ext j
  rw [mem_keySet, AList.mem_insert, Finset.mem_insert, mem_keySet]

theorem keySet_erase : keySet (t.erase k) = (keySet t).erase k := by
  ext j
  rw [mem_keySet, AList.mem_erase, Finset.mem_erase, mem_keySet]

/-- A table after an update, the keys that were added and the keys whose entries changed. -/
structure Merged (K V : Type) [DecidableEq K] where
  table : AList fun _ : K => V
  new : Finset K := ∅
  updated : Finset K := ∅

/-- The update of `t` adds the keys `keys`, and reports those that were not there as new and no
others. -/
structure Touches (t : AList fun _ : K => V) (keys : Finset K) (m : Merged K V) : Prop where
  keySet_eq : keySet m.table = keySet t ∪ keys
  new_eq : m.new = keys \ keySet t
  updated_subset : m.updated ⊆ keys

theorem touches_empty (t : AList fun _ : K => V) : Touches t ∅ { table := t } where
  keySet_eq := (Finset.union_empty _).symm
  new_eq := (Finset.empty_sdiff _).symm
  updated_subset := Finset.Subset.refl _

/-- The entry of `k`, or `zero` if there is none, goes through `f`, which says whether it changed
the entry. -/
def upsert (t : AList fun _ : K => V) (k : K) (zero : V) (f : V → V × Bool) : Merged K V :=
  match t.lookup k with
  | none => { table := t.insert k (f zero).1, new := {k} }
  | some v => { table := t.insert k (f v).1, updated := if (f v).2 then {k} else ∅ }

theorem keySet_upsert (t : AList fun _ : K => V) (k : K) (zero : V) (f : V → V × Bool) :
    keySet (upsert t k zero f).table = insert k (keySet t) := by
  rw [upsert]
  split <;> exact keySet_insert _

theorem new_upsert (t : AList fun _ : K => V) (k : K) (zero : V) (f : V → V × Bool) :
    (upsert t k zero f).new = {k} \ keySet t := by
  rw [upsert]
  split
  · next h =>
    have hk : k ∉ keySet t := mt mem_keySet.1 (AList.lookup_eq_none.1 h)
    rw [Finset.sdiff_eq_self_of_disjoint (Finset.disjoint_singleton_left.2 hk)]
  · next v h =>
    have hk : k ∈ keySet t := mem_keySet.2 (AList.lookup_isSome.1 (by rw [h]; rfl))
    exact (Finset.sdiff_eq_empty_iff_subset.2 (Finset.singleton_subset_iff.2 hk)).symm

theorem touches_upsert (t : AList fun _ : K => V) (k : K) (zero : V) (f : V → V × Bool) :
    Touches t {k} (upsert t k zero f) where
  keySet_eq := by
    rw [keySet_upsert, Finset.insert_eq, Finset.union_comm]
  new_eq := new_upsert t k zero f
  updated_subset := by
    rw [upsert]
    split
    · exact Finset.empty_subset _
    · dsimp only
      split
      · exact Finset.Subset.refl _
      · exact Finset.empty_subset _

theorem lookup_upsert (t : AList fun _ : K => V) (k : K) (zero : V) (f : V → V × Bool) (j : K) :
    (upsert t k zero f).table.lookup j =
      if j = k then some (f ((t.lookup k).getD zero)).1 else t.lookup j := by
  rw [upsert]
  by_cases hj : j = k
  · subst hj
    rw [if_pos rfl]
    split
    · next h => rw [AList.lookup_insert, h, Option.getD_none]
    · next v h => rw [AList.lookup_insert, h, Option.getD_some]
  · rw [if_neg hj]
    split <;> exact AList.lookup_insert_ne hj

/-- What holds of all entries, and is kept by `f` at `k`, still holds of all entries. -/
theorem forall_upsert {P : K → V → Prop} {t : AList fun _ : K => V} {k : K} {zero : V}
    {f : V → V × Bool} (ht : ∀ j v, t.lookup j = some v → P j v) (hzero : P k (f zero).1)
    (hf : ∀ v, P k v → P k (f v).1) :
    ∀ j v, (upsert t k zero f).table.lookup j = some v → P j v := by
  intro j v hv
  rw [lookup_upsert] at hv
  split at hv
  · next hj =>
    subst hj
    cases hv
    cases h : t.lookup j with
    | none => exact hzero
    | some u => exact hf u (ht j u h)
  · exact ht j v hv

theorem lookup_upsert_of_unreported {t : AList fun _ : K => V} {k j : K} {zero : V}
    {f : V → V × Bool} (hf : ∀ v, (f v).2 = false → (f v).1 = v)
    (hnew : j ∉ (upsert t k zero f).new) (hupdated : j ∉ (upsert t k zero f).updated) :
    (upsert t k zero f).table.lookup j = t.lookup j := by
  rw [upsert] at hnew hupdated ⊢
  split
  · next h =>
    simp only [h, Finset.mem_singleton] at hnew
    exact AList.lookup_insert_ne hnew
  · next v h =>
    simp only [h] at hupdated
    by_cases hj : j = k
    · subst hj
      have hsame : (f v).2 = false := by
        cases hv : (f v).2 with
        | false => rfl
        | true => simp [hv] at hupdated
      rw [AList.lookup_insert, hf v hsame, h]
    · exact AList.lookup_insert_ne hj

/-- One entry of the other table. -/
def mergeEntry (f : V → V → V × Bool) (s : Merged K V) (e : Σ _ : K, V) : Merged K V :=
  match s.table.lookup e.1 with
  | some v =>
    { s with
      table := s.table.insert e.1 (f v e.2).1
      updated := if (f v e.2).2 then insert e.1 s.updated else s.updated }
  | none => { s with table := s.table.insert e.1 e.2, new := insert e.1 s.new }

/-- The entries of `other` are added, or merged with `f` into the entries that are there. -/
def mergeWith (f : V → V → V × Bool) (t other : AList fun _ : K => V) : Merged K V :=
  other.entries.foldl (mergeEntry f) { table := t }

theorem keySet_mergeEntry (f : V → V → V × Bool) (s : Merged K V) (e : Σ _ : K, V) :
    keySet (mergeEntry f s e).table = insert e.1 (keySet s.table) := by
  rw [mergeEntry]
  split <;> exact keySet_insert _

theorem new_mergeEntry (f : V → V → V × Bool) (s : Merged K V) (e : Σ _ : K, V) :
    (mergeEntry f s e).new = s.new ∪ ({e.1} \ keySet s.table) := by
  rw [mergeEntry]
  split
  · next v h =>
    have hk : e.1 ∈ keySet s.table := mem_keySet.2 (AList.lookup_isSome.1 (by rw [h]; rfl))
    rw [Finset.sdiff_eq_empty_iff_subset.2 (Finset.singleton_subset_iff.2 hk), Finset.union_empty]
  · next h =>
    have hk : e.1 ∉ keySet s.table := mt mem_keySet.1 (AList.lookup_eq_none.1 h)
    rw [Finset.sdiff_eq_self_of_disjoint (Finset.disjoint_singleton_left.2 hk),
      Finset.union_comm, ← Finset.insert_eq]

theorem updated_mergeEntry (f : V → V → V × Bool) (s : Merged K V) (e : Σ _ : K, V) :
    (mergeEntry f s e).updated ⊆ insert e.1 s.updated := by
  rw [mergeEntry]
  split
  · dsimp only
    split
    · exact Finset.Subset.refl _
    · exact Finset.subset_insert _ _
  · exact Finset.subset_insert _ _

theorem keySet_foldl_mergeEntry (f : V → V → V × Bool) (l : List (Σ _ : K, V)) (s : Merged K V) :
    keySet (l.foldl (mergeEntry f) s).table = keySet s.table ∪ l.keys.toFinset := by
  induction l generalizing s with
  | nil => simp
  | cons e l ih =>
    rw [List.foldl_cons, ih, keySet_mergeEntry, List.keys_cons, List.toFinset_cons,
      Finset.insert_union, Finset.union_insert]

theorem new_foldl_mergeEntry (f : V → V → V × Bool) (l : List (Σ _ : K, V)) (hl : l.NodupKeys)
    (s : Merged K V) :
    (l.foldl (mergeEntry f) s).new = s.new ∪ (l.keys.toFinset \ keySet s.table) := by
  induction l generalizing s with
  | nil => simp
  | cons e l ih =>
    obtain ⟨he, hl⟩ := List.nodupKeys_cons.1 hl
    rw [List.foldl_cons, ih hl, new_mergeEntry, keySet_mergeEntry]
    ext j
    by_cases hj : j = e.1
    · subst hj
      simp [he]
    · simp [hj]

theorem updated_foldl_mergeEntry (f : V → V → V × Bool) (l : List (Σ _ : K, V))
    (s : Merged K V) :
    (l.foldl (mergeEntry f) s).updated ⊆ s.updated ∪ l.keys.toFinset := by
  induction l generalizing s with
  | nil => simp
  | cons e l ih =>
    rw [List.foldl_cons, List.keys_cons, List.toFinset_cons, Finset.union_insert,
      ← Finset.insert_union]
    exact (ih _).trans (Finset.union_subset_union_left (updated_mergeEntry f s e))

theorem subset_foldl_mergeEntry (f : V → V → V × Bool) (l : List (Σ _ : K, V))
    (s : Merged K V) :
    s.new ⊆ (l.foldl (mergeEntry f) s).new ∧ s.updated ⊆ (l.foldl (mergeEntry f) s).updated := by
  induction l generalizing s with
  | nil => exact ⟨Finset.Subset.refl _, Finset.Subset.refl _⟩
  | cons e l ih =>
    have hentry : s.new ⊆ (mergeEntry f s e).new ∧ s.updated ⊆ (mergeEntry f s e).updated := by
      rw [mergeEntry]
      split
      · refine ⟨Finset.Subset.refl _, ?_⟩
        dsimp only
        split
        · exact Finset.subset_insert _ _
        · exact Finset.Subset.refl _
      · exact ⟨Finset.subset_insert _ _, Finset.Subset.refl _⟩
    exact ⟨hentry.1.trans (ih _).1, hentry.2.trans (ih _).2⟩

theorem lookup_mergeEntry (f : V → V → V × Bool) (s : Merged K V) (e : Σ _ : K, V) (j : K) :
    (mergeEntry f s e).table.lookup j =
      if j = e.1 then Option.merge (fun v w => (f v w).1) (s.table.lookup j) (some e.2)
      else s.table.lookup j := by
  rw [mergeEntry]
  by_cases hj : j = e.1
  · subst hj
    rw [if_pos rfl]
    split
    · next v h => rw [AList.lookup_insert, h, Option.merge_some_some]
    · next h => rw [AList.lookup_insert, h, Option.merge_none_left]
  · rw [if_neg hj]
    split <;> exact AList.lookup_insert_ne hj

theorem lookup_foldl_mergeEntry (f : V → V → V × Bool) {l : List (Σ _ : K, V)}
    (hl : l.NodupKeys) (s : Merged K V) (j : K) :
    (l.foldl (mergeEntry f) s).table.lookup j =
      Option.merge (fun v w => (f v w).1) (s.table.lookup j) (l.dlookup j) := by
  induction l generalizing s with
  | nil => simp
  | cons e l ih =>
    obtain ⟨he, hl⟩ := List.nodupKeys_cons.1 hl
    rw [List.foldl_cons, ih hl, lookup_mergeEntry]
    by_cases hj : j = e.1
    · subst hj
      rw [if_pos rfl, List.dlookup_eq_none.2 he, Option.merge_none_right, List.dlookup_cons_eq]
    · rw [if_neg hj, List.dlookup_cons_ne _ _ hj]

theorem lookup_mergeWith (f : V → V → V × Bool) (t other : AList fun _ : K => V) (j : K) :
    (mergeWith f t other).table.lookup j =
      Option.merge (fun v w => (f v w).1) (t.lookup j) (other.lookup j) :=
  lookup_foldl_mergeEntry f other.nodupKeys _ j

theorem forall_mergeWith {P : K → V → Prop} {f : V → V → V × Bool} {t other : AList fun _ : K => V}
    (ht : ∀ j v, t.lookup j = some v → P j v) (hother : ∀ j v, other.lookup j = some v → P j v)
    (hf : ∀ j v w, P j v → P j w → P j (f v w).1) :
    ∀ j v, (mergeWith f t other).table.lookup j = some v → P j v := by
  intro j v hv
  rw [lookup_mergeWith] at hv
  cases h : t.lookup j with
  | none =>
    rw [h, Option.merge_none_left] at hv
    exact hother j v hv
  | some u =>
    cases h' : other.lookup j with
    | none =>
      rw [h, h', Option.merge_none_right] at hv
      exact ht j v (h.trans hv)
    | some u' =>
      rw [h, h', Option.merge_some_some] at hv
      cases hv
      exact hf j u u' (ht j u h) (hother j u' h')

theorem lookup_mergeEntry_of_unreported {f : V → V → V × Bool}
    (hf : ∀ v w, (f v w).2 = false → (f v w).1 = v) {s : Merged K V} {e : Σ _ : K, V} {j : K}
    (hnew : j ∉ (mergeEntry f s e).new)
    (hupdated : j ∉ (mergeEntry f s e).updated) :
    (mergeEntry f s e).table.lookup j = s.table.lookup j := by
  rw [mergeEntry] at hnew hupdated ⊢
  split
  · next v h =>
    simp only [h] at hupdated
    by_cases hj : j = e.1
    · subst hj
      have hsame : (f v e.2).2 = false := by
        cases hv : (f v e.2).2 with
        | false => rfl
        | true => simp [hv] at hupdated
      rw [AList.lookup_insert, hf v e.2 hsame, h]
    · exact AList.lookup_insert_ne hj
  · next h =>
    simp only [h, Finset.mem_insert, not_or] at hnew
    exact AList.lookup_insert_ne hnew.1

theorem lookup_foldl_mergeEntry_of_unreported {f : V → V → V × Bool}
    (hf : ∀ v w, (f v w).2 = false → (f v w).1 = v) {l : List (Σ _ : K, V)} {s : Merged K V}
    {j : K} (hnew : j ∉ (l.foldl (mergeEntry f) s).new)
    (hupdated : j ∉ (l.foldl (mergeEntry f) s).updated) :
    (l.foldl (mergeEntry f) s).table.lookup j = s.table.lookup j := by
  induction l generalizing s with
  | nil => rfl
  | cons e l ih =>
    have hsub := subset_foldl_mergeEntry f l (mergeEntry f s e)
    rw [List.foldl_cons, ih hnew hupdated,
      lookup_mergeEntry_of_unreported hf (fun h => hnew (hsub.1 h)) fun h => hupdated (hsub.2 h)]

theorem lookup_mergeWith_of_unreported {f : V → V → V × Bool}
    (hf : ∀ v w, (f v w).2 = false → (f v w).1 = v) {t other : AList fun _ : K => V}
    {j : K} (hnew : j ∉ (mergeWith f t other).new) (hupdated : j ∉ (mergeWith f t other).updated) :
    (mergeWith f t other).table.lookup j = t.lookup j :=
  lookup_foldl_mergeEntry_of_unreported hf hnew hupdated

theorem new_mergeWith (f : V → V → V × Bool) (t other : AList fun _ : K => V) :
    (mergeWith f t other).new = keySet other \ keySet t := by
  rw [mergeWith, new_foldl_mergeEntry f _ other.nodupKeys, Finset.empty_union]
  rfl

theorem touches_mergeWith (f : V → V → V × Bool) (t other : AList fun _ : K => V) :
    Touches t (keySet other) (mergeWith f t other) where
  keySet_eq := keySet_foldl_mergeEntry f _ _
  new_eq := new_mergeWith f t other
  updated_subset := by
    refine (updated_foldl_mergeEntry f _ _).trans ?_
    rw [Finset.empty_union]
    exact Finset.Subset.refl _

end Table
