import OpenPCC.Lib.Bytes

/-!
# Readers

A `Source` is an `io.Reader` over given data that decides itself how many bytes a `Read` returns,
and whether `io.EOF` comes with the last bytes or after them. A sequence of reads gets a first part
of the data (`slice_append`), the end is reported only behind all of it (`readTo_of_reportsEOF`),
and enough reads get there (`reportsEOF_of_enough`).
-/

namespace Go

structure Source where
  data : Bytes
  /-- how many bytes a `Read` of up to `size` bytes returns at a position -/
  count : Nat → Nat → Nat
  /-- `io.EOF` comes with the last bytes -/
  eager : Bool
  count_le_size : ∀ pos size, count pos size ≤ size
  count_le_rest : ∀ pos size, count pos size ≤ data.length - pos
  count_pos : ∀ pos size, pos < data.length → 0 < size → 0 < count pos size

namespace Source

/-- A `bytes.Reader`. -/
def ofBytes (b : Bytes) : Source where
  data := b
  count pos size := min size (b.length - pos)
  eager := false
  count_le_size _ _ := Nat.min_le_left _ _
  count_le_rest _ _ := Nat.min_le_right _ _
  count_pos _ _ hpos hsize := by omega

variable (s : Source)

/-- The bytes that a `Read` returns, and whether it reports `io.EOF`. -/
def read (pos size : Nat) : Bytes × Bool :=
  ((s.data.drop pos).take (s.count pos size),
    decide (s.data.length ≤ pos) || s.eager && decide (s.data.length ≤ pos + s.count pos size))

/-- The position after a sequence of reads. -/
def readTo : Nat → List Nat → Nat
  | pos, [] => pos
  | pos, size :: sizes => readTo (pos + s.count pos size) sizes

/-- A read of the sequence reports `io.EOF`. -/
def reportsEOF : Nat → List Nat → Bool
  | _, [] => false
  | pos, size :: sizes => (s.read pos size).2 || reportsEOF (pos + s.count pos size) sizes

/-- The data between two positions. -/
def slice (pos pos' : Nat) : Bytes := (s.data.drop pos).take (pos' - pos)

variable {s}

theorem length_read (pos size : Nat) : (s.read pos size).1.length = s.count pos size := by
  have hle := s.count_le_rest pos size
  rw [read, List.length_take, List.length_drop]
  omega

theorem read_fst (pos size : Nat) :
    (s.read pos size).1 = s.slice pos (pos + s.count pos size) := by
  rw [slice, Nat.add_sub_cancel_left]
  rfl

theorem le_readTo (pos : Nat) (sizes : List Nat) : pos ≤ s.readTo pos sizes := by
  induction sizes generalizing pos with
  | nil => exact Nat.le_refl pos
  | cons size sizes ih => exact Nat.le_trans (Nat.le_add_right _ _) (ih _)

theorem readTo_le {pos : Nat} (hpos : pos ≤ s.data.length) (sizes : List Nat) :
    s.readTo pos sizes ≤ s.data.length := by
  induction sizes generalizing pos with
  | nil => exact hpos
  | cons size sizes ih =>
    have hle := s.count_le_rest pos size
    exact ih (by omega)

theorem slice_append {pos mid pos' : Nat} (h : pos ≤ mid) (h' : mid ≤ pos') :
    s.slice pos mid ++ s.slice mid pos' = s.slice pos pos' := by
  have hmid : pos + (mid - pos) = mid := by omega
  have hsum : pos' - pos = (mid - pos) + (pos' - mid) := by omega
  rw [slice, slice, slice, hsum, List.take_add, List.drop_drop, hmid]

theorem slice_zero (pos' : Nat) : s.slice 0 pos' = s.data.take pos' := rfl

theorem slice_self (pos : Nat) : s.slice pos pos = [] := by
  rw [slice, Nat.sub_self, List.take_zero]

theorem readTo_of_reportsEOF {pos : Nat} {sizes : List Nat} (hpos : pos ≤ s.data.length)
    (h : s.reportsEOF pos sizes = true) : s.readTo pos sizes = s.data.length := by
  induction sizes generalizing pos with
  | nil => cases h
  | cons size sizes ih =>
    have hle := s.count_le_rest pos size
    have hnext : pos + s.count pos size ≤ s.data.length := by omega
    rw [reportsEOF, Bool.or_eq_true] at h
    obtain h | h := h
    · have hend : s.data.length ≤ pos + s.count pos size := by
        simp only [read, Bool.or_eq_true, Bool.and_eq_true, decide_eq_true_eq] at h
        omega
      exact Nat.le_antisymm (readTo_le hnext sizes) (Nat.le_trans hend (le_readTo _ sizes))
    · exact ih hnext h

theorem reportsEOF_of_enough {pos : Nat} {sizes : List Nat}
    (h : s.data.length - pos < (sizes.filter (0 < ·)).length) :
    s.reportsEOF pos sizes = true := by
  induction sizes generalizing pos with
  | nil => simp at h
  | cons size sizes ih =>
    rw [reportsEOF, Bool.or_eq_true]
    by_cases hend : s.data.length ≤ pos
    · exact .inl (by simp [read, hend])
    · refine .inr (ih ?_)
      rw [List.filter_cons] at h
      split at h
      · next hsize =>
        have hcount := s.count_pos pos size (by omega) (by simpa using hsize)
        rw [List.length_cons] at h
        omega
      · omega

end Source

end Go
