import Mathlib.Data.List.Infix
import Mathlib.Data.List.Sort

/-!
# Lists that are sorted by a key

The run of a list at a key are its elements with that key, in their order. A sorted list is
determined by its runs (`eq_of_runAt`). `zipUnion` pairs two lists position by position and keeps
one of two equal elements; it gives back its first argument exactly if the second one is a prefix
of it (`zipUnion_eq_left_iff`), and pairing the result with either list changes nothing exactly if
one of the two is a prefix of the other (`zipUnion_zipUnion_iff`).
-/

namespace Runs

/-! ## Sorting -/

/-- Sorting forgets the order of a list and nothing else, if no two elements are equivalent. -/
theorem insertionSort_eq_iff {α : Type*} {r : α → α → Prop} [DecidableRel r] [Std.Total r]
    [IsTrans α r] {l l' : List α} (hanti : ∀ a ∈ l, ∀ b ∈ l', r a b → r b a → a = b) :
    l.insertionSort r = l'.insertionSort r ↔ l.Perm l' := by
  have hl := List.perm_insertionSort r l
  have hl' := List.perm_insertionSort r l'
  constructor
  · exact fun h => hl.symm.trans (h ▸ hl')
  · intro h
    exact List.Perm.eq_of_pairwise
      (fun a b ha hb => hanti a (hl.mem_iff.1 ha) b (hl'.mem_iff.1 hb))
      (List.pairwise_insertionSort r l) (List.pairwise_insertionSort r l')
      ((hl.trans h).trans hl'.symm)

/-! ## Runs -/

section Runs

variable {α τ : Type} [LinearOrder τ] (key : α → τ)

/-- The elements with key `t`. -/
def runAt (t : τ) (l : List α) : List α := l.filter (key · = t)

variable {key} {l m : List α} {x : α} {t : τ}

theorem mem_runAt : x ∈ runAt key t l ↔ x ∈ l ∧ key x = t := by
  simp [runAt]

theorem runAt_cons (x : α) (l : List α) (t : τ) :
    runAt key t (x :: l) = if key x = t then x :: runAt key t l else runAt key t l := by
  simp [runAt, List.filter_cons]

theorem runAt_eq_nil (h : ∀ x ∈ l, t < key x) : runAt key t l = [] := by
  rw [runAt, List.filter_eq_nil_iff]
  intro x hx
  simpa using (h x hx).ne'

theorem mem_iff_of_runAt (h : ∀ t, runAt key t l = runAt key t m) (x : α) : x ∈ l ↔ x ∈ m := by
  have hx := congrArg (x ∈ ·) (h (key x))
  simpa only [mem_runAt, and_true, eq_iff_iff] using hx

theorem eq_of_runAt (hl : l.Pairwise (key · ≤ key ·)) (hm : m.Pairwise (key · ≤ key ·))
    (h : ∀ t, runAt key t l = runAt key t m) : l = m := by
  induction l generalizing m with
  | nil =>
    have hmem := mem_iff_of_runAt h
    exact (List.eq_nil_iff_forall_not_mem.2 fun x hx => by simpa using (hmem x).2 hx).symm
  | cons x l ih =>
    have hmem := mem_iff_of_runAt h
    cases m with
    | nil => simpa using hmem x
    | cons y m =>
      rw [List.pairwise_cons] at hl hm
      -- the least keys agree, so the first elements are those of the same run
      have hkey : key x = key y := by
        apply le_antisymm
        · obtain rfl | hy := List.mem_cons.1 ((hmem y).2 List.mem_cons_self)
          · exact le_rfl
          · exact hl.1 y hy
        · obtain rfl | hx := List.mem_cons.1 ((hmem x).1 List.mem_cons_self)
          · exact le_rfl
          · exact hm.1 x hx
      have hfirst := h (key x)
      rw [runAt_cons, runAt_cons, if_pos rfl, if_pos hkey.symm, List.cons.injEq] at hfirst
      obtain ⟨rfl, -⟩ := hfirst
      have htail : ∀ t, runAt key t l = runAt key t m := by
        intro t
        have ht := h t
        rw [runAt_cons, runAt_cons] at ht
        split at ht
        · exact (List.cons.inj ht).2
        · exact ht
      rw [ih hl.2 hm.2 htail]

theorem nodup_of_runAt (h : ∀ t, (runAt key t l).Nodup) : l.Nodup := by
  classical
  rw [List.nodup_iff_count_le_one]
  intro x
  have hx := List.nodup_iff_count_le_one.1 (h (key x)) x
  rwa [runAt, List.count_filter (by simp)] at hx

end Runs

/-! ## Pairing two lists -/

section ZipUnion

variable {α : Type} [DecidableEq α] {p q : List α}

def zipUnion : List α → List α → List α
  | [], q => q
  | x :: p, [] => x :: p
  | x :: p, y :: q => if x = y then x :: zipUnion p q else x :: y :: zipUnion p q

@[simp] theorem zipUnion_nil_left (q : List α) : zipUnion [] q = q := by
  rw [zipUnion]

@[simp] theorem zipUnion_nil_right (p : List α) : zipUnion p [] = p := by
  cases p <;> rw [zipUnion]

theorem zipUnion_cons (x y : α) (p q : List α) :
    zipUnion (x :: p) (y :: q) =
      if x = y then x :: zipUnion p q else x :: y :: zipUnion p q := by
  rw [zipUnion]

theorem zipUnion_of_prefix_left (h : p <+: q) : zipUnion p q = q := by
  induction p generalizing q with
  | nil => exact zipUnion_nil_left q
  | cons x p ih =>
    obtain ⟨r, rfl⟩ := h
    rw [List.cons_append, zipUnion_cons, if_pos rfl, ih (List.prefix_append p r)]

theorem zipUnion_of_prefix_right (h : q <+: p) : zipUnion p q = p := by
  induction q generalizing p with
  | nil => exact zipUnion_nil_right p
  | cons x q ih =>
    obtain ⟨r, rfl⟩ := h
    rw [List.cons_append, zipUnion_cons, if_pos rfl, ih (List.prefix_append q r)]

theorem sublist_zipUnion (p q : List α) : p.Sublist (zipUnion p q) := by
  induction p generalizing q with
  | nil => exact List.nil_sublist _
  | cons x p ih =>
    cases q with
    | nil => rw [zipUnion_nil_right]
    | cons y q =>
      rw [zipUnion_cons]
      split
      · exact (ih q).cons_cons x
      · exact ((ih q).cons y).cons_cons x

theorem zipUnion_eq_left_iff : zipUnion p q = p ↔ q <+: p := by
  refine ⟨fun h => ?_, zipUnion_of_prefix_right⟩
  induction p generalizing q with
  | nil => rw [← h, zipUnion_nil_left]
  | cons x p ih =>
    cases q with
    | nil => exact List.nil_prefix
    | cons y q =>
      rw [zipUnion_cons] at h
      split at h
      · next hxy =>
        rw [hxy, List.prefix_cons_inj]
        exact ih (List.cons.inj h).2
      · -- an element more than in the first list
        have hlen := congrArg List.length (List.cons.inj h).2
        have hle := (sublist_zipUnion p q).length_le
        rw [List.length_cons] at hlen
        omega

theorem zipUnion_comm_of_comparable (h : p <+: q ∨ q <+: p) : zipUnion p q = zipUnion q p := by
  obtain h | h := h
  · rw [zipUnion_of_prefix_left h, zipUnion_of_prefix_right h]
  · rw [zipUnion_of_prefix_right h, zipUnion_of_prefix_left h]

/-- Pairing both ways gives the same list if one of the two is a prefix of the other; otherwise
the second pairing differs where the two lists first do. -/
theorem zipUnion_zipUnion_iff : zipUnion q (zipUnion p q) = zipUnion p q ↔ p <+: q ∨ q <+: p := by
  constructor
  · intro h
    induction p generalizing q with
    | nil => exact .inl List.nil_prefix
    | cons x p ih =>
      cases q with
      | nil => exact .inr List.nil_prefix
      | cons y q =>
        by_cases hxy : x = y
        · rw [zipUnion_cons, if_pos hxy, zipUnion_cons, if_pos hxy.symm, hxy] at h
          rw [hxy, List.prefix_cons_inj, List.prefix_cons_inj]
          exact ih (List.cons.inj h).2
        · rw [zipUnion_cons x, if_neg hxy, zipUnion_cons, if_neg (Ne.symm hxy)] at h
          exact absurd (List.cons.inj h).1.symm hxy
  · rintro (h | h)
    · rw [zipUnion_of_prefix_left h, zipUnion_of_prefix_left List.prefix_rfl]
    · rw [zipUnion_of_prefix_right h, zipUnion_of_prefix_left h]

end ZipUnion

end Runs
