import Mathlib.Data.List.Induction
import Mathlib.Data.List.Pairwise
import Mathlib.Data.List.Sort

/-!
# Sweeps with a lagging index

Points are visited in ascending order with an index into a sorted list of marks. The index that
belongs to a point is its `rank`, the number of marks below it; beyond the last mark it starts again
from the first one. `advance` moves the index on by one mark at most, so it lags behind if there are
several marks between two points. `passed` is how many marks it has passed (`foldl_advance`): as
many as can be passed if each point passes one and none that is not below it (`le_passed_iff`). If
the points are numbers, `exists_passed_iff` says which numbers of marks some points can pass.
-/

namespace Sweep

variable {α : Type*} [LinearOrder α] (marks : List α)

/-- The number of marks below a point. -/
def rank (x : α) : Nat := marks.countP fun m => decide (m < x)

/-- The index after a point. -/
def advance (i : Nat) (x : α) : Nat :=
  if i < rank marks x then (i + 1) % marks.length else i

/-- The number of marks that are passed after a point. -/
def pass (c : Nat) (x : α) : Nat :=
  if rank marks x < marks.length then min (c + 1) (rank marks x) else c + 1

def passed (points : List α) : Nat := points.foldl (pass marks) 0

variable {marks}

/-! ## Ranks -/

theorem rank_le_length (x : α) : rank marks x ≤ marks.length := List.countP_le_length

theorem rank_lt_length_iff {x : α} : rank marks x < marks.length ↔ ∃ m ∈ marks, x ≤ m := by
  rw [(rank_le_length x).lt_iff_ne, rank, ne_eq, List.countP_eq_length]
  simp

theorem rank_pos_iff {x : α} : 0 < rank marks x ↔ ∃ m ∈ marks, m < x := by
  rw [rank, List.countP_pos_iff]
  simp

theorem rank_mono {x y : α} (h : x ≤ y) : rank marks x ≤ rank marks y := by
  refine List.countP_mono_left fun m _ hm => ?_
  rw [decide_eq_true_eq] at hm ⊢
  exact hm.trans_le h

theorem getElem_lt_iff (hmarks : marks.Pairwise (· ≤ ·)) {i : Nat} (hi : i < marks.length) {x : α} :
    marks[i] < x ↔ i < rank marks x := by
  induction marks generalizing i with
  | nil => simp at hi
  | cons m marks ih =>
    obtain ⟨hm, hmarks⟩ := List.pairwise_cons.1 hmarks
    by_cases hlt : m < x
    · have hrank : rank (m :: marks) x = rank marks x + 1 :=
        List.countP_cons_of_pos (by simpa using hlt)
      rw [hrank]
      cases i with
      | zero => simp [hlt]
      | succ i =>
        rw [List.getElem_cons_succ, ih hmarks, Nat.add_lt_add_iff_right]
    · -- all marks are at or above the point
      have hrank : rank (m :: marks) x = 0 := by
        refine List.countP_eq_zero.2 fun m' hm' => ?_
        rw [decide_eq_true_eq, not_lt]
        obtain rfl | hm' := List.mem_cons.1 hm'
        · exact not_lt.1 hlt
        · exact (not_lt.1 hlt).trans (hm m' hm')
      have hle : m ≤ (m :: marks)[i] := by
        cases i with
        | zero => exact le_rfl
        | succ i => exact hm _ (List.getElem_mem _)
      rw [hrank]
      exact iff_of_false (fun h => hlt (hle.trans_lt h)) (Nat.not_lt_zero i)

theorem find?_eq_getElem?_rank (hmarks : marks.Pairwise (· ≤ ·)) (x : α) :
    marks.find? (fun m => decide (x ≤ m)) = marks[rank marks x]? := by
  by_cases hx : rank marks x < marks.length
  · rw [List.getElem?_eq_getElem hx, List.find?_eq_some_iff_getElem]
    refine ⟨?_, rank marks x, hx, rfl, fun i hi => ?_⟩
    · rw [decide_eq_true_eq, ← not_lt, getElem_lt_iff hmarks hx]
      exact Nat.lt_irrefl _
    · have hlt := (getElem_lt_iff hmarks (hi.trans hx)).2 hi
      simpa using hlt
  · rw [List.getElem?_eq_none (Nat.le_of_not_lt hx), List.find?_eq_none]
    intro m hm
    obtain ⟨i, hi, rfl⟩ := List.mem_iff_getElem.1 hm
    rw [decide_eq_true_eq, not_le, getElem_lt_iff hmarks hi]
    omega

theorem rank_getElem_le (hmarks : marks.Pairwise (· ≤ ·)) {i : Nat} (hi : i < marks.length) :
    rank marks marks[i] ≤ i := by
  rw [← not_lt, ← getElem_lt_iff hmarks hi]
  exact lt_irrefl _

theorem getElem?_rank (hmarks : marks.Pairwise (· ≤ ·)) {m : α} (hm : m ∈ marks) :
    marks[rank marks m]? = some m := by
  have hlt : rank marks m < marks.length := rank_lt_length_iff.2 ⟨m, hm, le_rfl⟩
  have hge : m ≤ marks[rank marks m] := by
    rw [← not_lt, getElem_lt_iff hmarks hlt]
    exact Nat.lt_irrefl _
  rw [List.getElem?_eq_getElem hlt]
  refine congrArg some (le_antisymm ?_ hge)
  obtain ⟨i, hi, rfl⟩ := List.mem_iff_getElem.1 hm
  obtain heq | hlt' := (rank_getElem_le hmarks hi).eq_or_lt
  · exact le_of_eq (getElem_congr_idx heq)
  · exact List.pairwise_iff_getElem.1 hmarks _ _ hlt hi hlt'

/-! ## The index -/

theorem pass_le_succ (c : Nat) (x : α) : pass marks c x ≤ c + 1 := by
  unfold pass
  split <;> omega

theorem passed_append (points : List α) (x : α) :
    passed marks (points ++ [x]) = pass marks (passed marks points) x :=
  List.foldl_append

theorem passed_le_rank {points : List α} {x : α} (hle : ∀ p ∈ points, p ≤ x)
    (hx : rank marks x < marks.length) : passed marks points ≤ rank marks x := by
  induction points using List.reverseRecOn with
  | nil => exact Nat.zero_le _
  | append_singleton points p _ =>
    have hp : rank marks p ≤ rank marks x := rank_mono (hle p (by simp))
    rw [passed_append, pass, if_pos (by omega)]
    omega

theorem foldl_advance {points : List α} (hpoints : points.Pairwise (· ≤ ·)) (hne : marks ≠ []) :
    points.foldl (advance marks) 0 = passed marks points % marks.length := by
  have hpos : 0 < marks.length := List.length_pos_iff.2 hne
  induction points using List.reverseRecOn with
  | nil => exact (Nat.zero_mod _).symm
  | append_singleton points x ih =>
    obtain ⟨hpoints, -, hle⟩ := List.pairwise_append.1 hpoints
    have hlt : passed marks points % marks.length < marks.length := Nat.mod_lt _ hpos
    rw [List.foldl_append, List.foldl_cons, List.foldl_nil, ih hpoints, passed_append, advance,
      pass]
    by_cases hx : rank marks x < marks.length
    · -- up to here the index has not started again
      have hc := passed_le_rank (fun p hp => hle p hp x (by simp)) hx
      rw [if_pos hx, Nat.mod_eq_of_lt (by omega : passed marks points < marks.length)]
      split
      · rw [Nat.min_eq_left (by omega)]
      · rw [Nat.min_eq_right (by omega), Nat.mod_eq_of_lt (by omega)]
        omega
    · have hrank : rank marks x = marks.length := by
        have hle : rank marks x ≤ marks.length := rank_le_length x
        omega
      rw [if_pos (by omega), if_neg hx, Nat.mod_add_mod]

/-- The marks are passed in the order of the points, and each point passes one at most. -/
theorem le_passed_iff (points : List α) (i : Nat) :
    i ≤ passed marks points ↔ i ≤ points.length ∧ ∀ j x, points[j]? = some x →
      rank marks x < marks.length → i ≤ rank marks x + (points.length - 1 - j) := by
  induction points using List.reverseRecOn generalizing i with
  | nil => simp [passed]
  | append_singleton points y ih =>
    have hpass : i ≤ pass marks (passed marks points) y ↔
        i - 1 ≤ passed marks points ∧ (rank marks y < marks.length → i ≤ rank marks y) := by
      unfold pass
      split <;> omega
    rw [passed_append, hpass, ih, List.length_append, List.length_singleton]
    constructor
    · rintro ⟨⟨hlen, hall⟩, hlast⟩
      refine ⟨by omega, fun j x hx hrank => ?_⟩
      obtain hj | hj := Nat.lt_or_ge j points.length
      · rw [List.getElem?_append_left hj] at hx
        have := hall j x hx hrank
        omega
      · rw [List.getElem?_append_right hj, List.getElem?_singleton] at hx
        split at hx
        · cases hx
          have := hlast hrank
          omega
        · cases hx
    · rintro ⟨hlen, hall⟩
      refine ⟨⟨by omega, fun j x hx hrank => ?_⟩, fun hrank => ?_⟩
      · have hj : j < points.length := (List.getElem?_eq_some_iff.1 hx).1
        have := hall j x (by rwa [List.getElem?_append_left hj]) hrank
        omega
      · have := hall points.length y (by simp) hrank
        omega

/-! ## A point at every mark -/

theorem rank_getElem (hmarks : marks.Pairwise (· < ·)) {i : Nat} (hi : i < marks.length) :
    rank marks marks[i] = i := by
  have hsorted : marks.Pairwise (· ≤ ·) := hmarks.imp le_of_lt
  apply Nat.le_antisymm (rank_getElem_le hsorted hi)
  · cases i with
    | zero => exact Nat.zero_le _
    | succ i =>
      have hlt := List.pairwise_iff_getElem.1 hmarks i (i + 1) (by omega) hi (by omega)
      exact (getElem_lt_iff hsorted (by omega)).1 hlt

/-- If there is a point at every mark, the index does not lag. -/
theorem passed_take (hmarks : marks.Pairwise (· < ·)) {i : Nat} (hi : i < marks.length) :
    passed marks (marks.take (i + 1)) = i := by
  induction i with
  | zero =>
    rw [List.take_add_one, List.getElem?_eq_getElem hi, Option.toList_some, passed_append, pass,
      rank_getElem hmarks hi, if_pos hi, Nat.min_zero]
  | succ i ih =>
    rw [List.take_add_one, List.getElem?_eq_getElem hi, Option.toList_some, passed_append,
      ih (by omega), pass, rank_getElem hmarks hi, if_pos hi, Nat.min_self]

/-! ## The numbers that a sweep can reach -/

theorem foldl_pass_le_succ {c c' : Nat} (h : c' ≤ c + 1) (points : List α) :
    points.foldl (pass marks) c' ≤ points.foldl (pass marks) c + 1 := by
  induction points generalizing c c' with
  | nil => exact h
  | cons x points ih =>
    refine ih ?_
    unfold pass
    split <;> omega

theorem passed_cons_le (x : α) (points : List α) :
    passed marks (x :: points) ≤ passed marks points + 1 :=
  foldl_pass_le_succ (pass_le_succ 0 x) points

theorem exists_suffix_passed {points : List α} {i : Nat} (hi : i ≤ passed marks points) :
    ∃ suffix, suffix <:+ points ∧ passed marks suffix = i := by
  induction points with
  | nil => exact ⟨[], List.nil_suffix, (Nat.le_zero.1 hi).symm⟩
  | cons x points ih =>
    by_cases hle : i ≤ passed marks points
    · obtain ⟨suffix, hsuffix, heq⟩ := ih hle
      exact ⟨suffix, hsuffix.trans (List.suffix_cons x points), heq⟩
    · have hcons : passed marks (x :: points) ≤ passed marks points + 1 := passed_cons_le x points
      exact ⟨x :: points, List.suffix_rfl, by omega⟩

section Nat

variable {marks : List Nat} {points : List Nat}

theorem passed_le_rank_add (hpoints : points.Pairwise (· < ·)) {x y : Nat}
    (hle : ∀ p ∈ points, p ≤ x) (hy : y ≤ x) (hrank : rank marks y < marks.length) :
    passed marks points ≤ rank marks y + (x - y) := by
  induction points using List.reverseRecOn generalizing x with
  | nil => exact Nat.zero_le _
  | append_singleton points p ih =>
    obtain ⟨hpoints, -, hlt⟩ := List.pairwise_append.1 hpoints
    have hpx : p ≤ x := hle p (by simp)
    have hlt : ∀ q ∈ points, q < p := fun q hq => hlt q hq p (by simp)
    obtain hpy | hpy := (Nat.lt_or_ge y p).symm
    · -- the mark at the end is not above the number
      have hall : ∀ q ∈ points ++ [p], q ≤ y := by
        intro q hq
        obtain hq | hq := List.mem_append.1 hq
        · exact (hlt q hq).le.trans hpy
        · exact (List.mem_singleton.1 hq).le.trans hpy
      exact (passed_le_rank hall hrank).trans (Nat.le_add_right _ _)
    · have hprefix := ih hpoints (x := p - 1) (fun q hq => Nat.le_pred_of_lt (hlt q hq)) (by omega)
      have hpass : pass marks (passed marks points) p ≤ passed marks points + 1 := pass_le_succ _ p
      rw [passed_append]
      omega

/-- The numbers of marks that points below `n` can pass. -/
theorem exists_passed_iff (hne : marks ≠ []) {n i : Nat} :
    (∃ points ≠ [], points.Pairwise (· < ·) ∧ (∀ p ∈ points, p < n) ∧ passed marks points = i) ↔
      ∃ x < n, i ≤ x + 1 ∧
        ∀ y ≤ x, rank marks y < marks.length → i ≤ rank marks y + (x - y) := by
  constructor
  · rintro ⟨points, hpoints, hstrict, hlt, rfl⟩
    have hsorted : points.Pairwise (· ≤ ·) := hstrict.imp Nat.le_of_lt
    have hle : ∀ p ∈ points, p ≤ points.getLast hpoints := fun p hp => hsorted.rel_getLast hp
    refine ⟨_, hlt _ (List.getLast_mem hpoints), ?_, fun y hy hrank =>
      passed_le_rank_add hstrict hle hy hrank⟩
    have hlength : passed marks points ≤ points.length := ((le_passed_iff points _).1 le_rfl).1
    have hsubset : points ⊆ List.range (points.getLast hpoints + 1) :=
      fun p hp => List.mem_range.2 (Nat.lt_succ_of_le (hle p hp))
    have hcard := (List.subperm_of_subset (hstrict.imp Nat.ne_of_lt) hsubset).length_le
    rw [List.length_range] at hcard
    exact hlength.trans hcard
  · rintro ⟨x, hx, hlen, hall⟩
    obtain rfl | hpos := Nat.eq_zero_or_pos i
    · have hrank : rank marks 0 = 0 := List.countP_eq_zero.2 fun m _ => by simp
      have hzero : passed marks [0] ≤ rank marks 0 := by
        refine passed_le_rank (fun p hp => (List.mem_singleton.1 hp).le) ?_
        rw [hrank]
        exact List.length_pos_iff.2 hne
      refine ⟨[0], List.cons_ne_nil _ _, List.pairwise_singleton .., ?_, by omega⟩
      exact fun p hp => (List.mem_singleton.1 hp).trans_lt (by omega)
    · have hrange : i ≤ passed marks (List.range (x + 1)) := by
        rw [le_passed_iff, List.length_range]
        refine ⟨hlen, fun j y hj hrank => ?_⟩
        obtain ⟨hlt, rfl⟩ := List.getElem?_eq_some_iff.1 hj
        rw [List.length_range] at hlt
        rw [List.getElem_range] at hrank ⊢
        have := hall j (by omega) hrank
        omega
      obtain ⟨points, hsuffix, rfl⟩ := exists_suffix_passed hrange
      refine ⟨points, ?_, List.pairwise_lt_range.sublist hsuffix.sublist, fun p hp => ?_, rfl⟩
      · rintro rfl
        exact absurd hpos (Nat.lt_irrefl 0)
      · have := List.mem_range.1 (hsuffix.subset hp)
        omega

end Nat

end Sweep
