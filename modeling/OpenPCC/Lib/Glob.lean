import Mathlib.Data.List.Basic

/-!
# Patterns with stars

In a pattern the letter `star` stands for any run of letters other than `sep`, and each other letter
for itself. A pattern is matched segment by segment (`accepts_segment`). A text that is joined from
blocks of one length contains a text of this length only as a block (`infix_intercalate_iff`).
-/

namespace Glob

variable {α : Type} [DecidableEq α] (star sep : α)

/-- Some rest of the text after a run without `sep` is accepted. -/
def afterStar (f : List α → Bool) : List α → Bool
  | [] => f []
  | c :: t => f (c :: t) || (decide (c ≠ sep) && afterStar f t)

def accepts : List α → List α → Bool
  | [], t => t.isEmpty
  | c :: p, t =>
    if c = star then afterStar sep (accepts p) t
    else
      match t with
      | [] => false
      | c' :: t => decide (c = c') && accepts p t

variable {star sep}

theorem afterStar_iff {f : List α → Bool} {t : List α} :
    afterStar sep f t = true ↔ ∃ u v, t = u ++ v ∧ sep ∉ u ∧ f v = true := by
  induction t with
  | nil =>
    constructor
    · exact fun h => ⟨[], [], rfl, List.not_mem_nil, h⟩
    · rintro ⟨u, v, ht, -, hf⟩
      obtain ⟨-, rfl⟩ := List.append_eq_nil_iff.1 ht.symm
      exact hf
  | cons c t ih =>
    rw [afterStar, Bool.or_eq_true, Bool.and_eq_true, decide_eq_true_eq, ih]
    constructor
    · rintro (hf | ⟨hc, u, v, rfl, hu, hf⟩)
      · exact ⟨[], c :: t, rfl, List.not_mem_nil, hf⟩
      · exact ⟨c :: u, v, rfl, List.not_mem_cons_of_ne_of_not_mem hc.symm hu, hf⟩
    · rintro ⟨u, v, ht, hu, hf⟩
      cases u with
      | nil =>
        obtain rfl : c :: t = v := ht
        exact .inl hf
      | cons c' u =>
        obtain ⟨rfl, rfl⟩ := List.cons.inj ht
        have hc : c ≠ sep := (List.ne_of_not_mem_cons hu).symm
        exact .inr ⟨hc, u, v, rfl, List.not_mem_of_not_mem_cons hu, hf⟩

theorem accepts_star {p t : List α} :
    accepts star sep (star :: p) t = true ↔
      ∃ u v, t = u ++ v ∧ sep ∉ u ∧ accepts star sep p v = true := by
  rw [accepts.eq_def]
  dsimp only
  rw [if_pos rfl]
  exact afterStar_iff

theorem accepts_cons_cons {c c' : α} (hc : c ≠ star) (p t : List α) :
    accepts star sep (c :: p) (c' :: t) = true ↔ c = c' ∧ accepts star sep p t = true := by
  rw [accepts, if_neg hc, Bool.and_eq_true, decide_eq_true_eq]

theorem accepts_cons_nil {c : α} (hc : c ≠ star) (p : List α) :
    accepts star sep (c :: p) [] = false := by
  rw [accepts, if_neg hc]

theorem accepts_append {w : List α} (hw : star ∉ w) (p t : List α) :
    accepts star sep (w ++ p) t = true ↔ ∃ v, t = w ++ v ∧ accepts star sep p v = true := by
  induction w generalizing t with
  | nil => simp
  | cons c w ih =>
    have hc : c ≠ star := (List.ne_of_not_mem_cons hw).symm
    have hw := List.not_mem_of_not_mem_cons hw
    cases t with
    | nil => simp [accepts_cons_nil hc]
    | cons c' t =>
      rw [List.cons_append, accepts_cons_cons hc, ih hw]
      constructor
      · rintro ⟨rfl, v, rfl, hv⟩
        exact ⟨v, rfl, hv⟩
      · rintro ⟨v, ht, hv⟩
        obtain ⟨rfl, rfl⟩ := List.cons.inj ht
        exact ⟨rfl, v, rfl, hv⟩

theorem accepts_literal {w : List α} (hw : star ∉ w) (t : List α) :
    accepts star sep w t = true ↔ t = w := by
  rw [← List.append_nil w, accepts_append hw]
  simp [accepts]

omit [DecidableEq α] in
theorem split_segment {u v s t : List α} (hu : sep ∉ u) (h : s ++ sep :: t = u ++ v) :
    ∃ w, s = u ++ w ∧ v = w ++ sep :: t := by
  obtain ⟨w, rfl, hw⟩ | ⟨w, rfl, rfl⟩ := List.append_eq_append_iff.1 h
  · cases w with
    | nil => exact ⟨[], by simp, hw.symm⟩
    | cons c w =>
      obtain ⟨rfl, -⟩ := List.cons.inj hw
      exact absurd (List.mem_append_right _ List.mem_cons_self) hu
  · exact ⟨w, rfl, rfl⟩

/-- The segments before a separator are matched by themselves. -/
theorem accepts_segment {p s : List α} (hstar : sep ≠ star) (hp : sep ∉ p) (hs : sep ∉ s)
    (q t : List α) :
    accepts star sep (p ++ sep :: q) (s ++ sep :: t) = true ↔
      accepts star sep p s = true ∧ accepts star sep q t = true := by
  induction p generalizing s with
  | nil =>
    cases s with
    | nil =>
      rw [List.nil_append, List.nil_append, accepts_cons_cons hstar]
      simp [accepts]
    | cons c s =>
      rw [List.nil_append, List.cons_append, accepts_cons_cons hstar]
      simp [accepts, List.ne_of_not_mem_cons hs]
  | cons c p ih =>
    have hc : c ≠ sep := (List.ne_of_not_mem_cons hp).symm
    have hp := List.not_mem_of_not_mem_cons hp
    by_cases hcs : c = star
    · subst hcs
      rw [List.cons_append, accepts_star, accepts_star]
      constructor
      · rintro ⟨u, v, heq, hu, hv⟩
        obtain ⟨w, rfl, rfl⟩ := split_segment hu heq
        obtain ⟨hfirst, hrest⟩ := (ih hp (fun h => hs (List.mem_append_right _ h))).1 hv
        exact ⟨⟨u, w, rfl, hu, hfirst⟩, hrest⟩
      · rintro ⟨⟨u, w, rfl, hu, hfirst⟩, hrest⟩
        refine ⟨u, w ++ sep :: t, List.append_assoc _ _ _, hu, ?_⟩
        exact (ih hp (fun h => hs (List.mem_append_right _ h))).2 ⟨hfirst, hrest⟩
    · cases s with
      | nil =>
        rw [List.nil_append, List.cons_append, accepts_cons_cons hcs, accepts_cons_nil hcs]
        simp [hc]
      | cons c' s =>
        have hs := List.not_mem_of_not_mem_cons hs
        rw [List.cons_append, List.cons_append, accepts_cons_cons hcs, accepts_cons_cons hcs,
          ih hp hs, and_assoc]

/-! ## Joined blocks -/

omit [DecidableEq α] in
theorem not_mem_intercalate {c : α} {blocks : List (List α)} (hc : c ≠ sep)
    (hblocks : ∀ b ∈ blocks, c ∉ b) : c ∉ [sep].intercalate blocks := by
  induction blocks with
  | nil => simp [List.intercalate]
  | cons b blocks ih =>
    obtain ⟨hb, hblocks⟩ := List.forall_mem_cons.1 hblocks
    cases blocks with
    | nil => rwa [List.intercalate_singleton]
    | cons b' blocks =>
      rw [List.intercalate_cons_cons, List.append_assoc, List.mem_append, List.mem_append]
      rintro (hmem | hmem | hmem)
      · exact hb hmem
      · exact hc (List.mem_singleton.1 hmem)
      · exact ih hblocks hmem

omit [DecidableEq α] in
theorem infix_intercalate_iff {w : List α} {blocks : List (List α)} (hsep : sep ∉ w) (hw : w ≠ [])
    (hblocks : ∀ b ∈ blocks, b.length = w.length) :
    w <:+: [sep].intercalate blocks ↔ w ∈ blocks := by
  induction blocks with
  | nil => simpa [List.intercalate] using hw
  | cons b blocks ih =>
    obtain ⟨hb, hblocks⟩ := List.forall_mem_cons.1 hblocks
    have hblock : w <:+: b → w = b := fun h => h.eq_of_length hb.symm
    cases blocks with
    | nil =>
      rw [List.intercalate_singleton, List.mem_singleton]
      exact ⟨hblock, fun h => h ▸ List.infix_refl _⟩
    | cons b' blocks =>
      rw [List.intercalate_cons_cons, List.mem_cons, ← ih hblocks]
      constructor
      · rintro ⟨u, v, h⟩
        rw [List.append_assoc b] at h
        obtain ⟨x, hx, -⟩ | ⟨x, hx, hrest⟩ := List.append_eq_append_iff.1 h
        · exact .inl (hblock ⟨u, x, hx.symm⟩)
        obtain ⟨y, hy, rfl⟩ | ⟨y, rfl, rfl⟩ := List.append_eq_append_iff.1 hx
        · -- what begins in the first block ends in it
          cases x with
          | nil => exact .inl (hblock ⟨u, [], by rw [hy, List.append_nil, List.append_nil]⟩)
          | cons c x =>
            obtain ⟨rfl, -⟩ := List.cons.inj hrest
            exact absurd (List.mem_append_right _ List.mem_cons_self) hsep
        · cases y with
          | nil =>
            obtain ⟨c, w, rfl⟩ := List.exists_cons_of_ne_nil hw
            obtain ⟨rfl, -⟩ := List.cons.inj hrest
            exact absurd List.mem_cons_self hsep
          | cons c y => exact .inr ⟨y, v, (List.cons.inj hrest).2.symm⟩
      · rintro (rfl | ⟨u, v, h⟩)
        · exact ⟨[], [sep] ++ [sep].intercalate (b' :: blocks), by simp⟩
        · exact ⟨b ++ [sep] ++ u, v, by rw [← h]; simp⟩

end Glob
