import OpenPCC.Httpretry.RewindableBody

/-!
# What a retried request sends

A body that was rewound once is a recording: every later attempt leaves it one (`Recorded`), and
rewinding it offers the same bytes again, but for what the last attempt reads after that. What was
recorded is what the first attempt read, if it closed the body before `Rewind` was called
(`Fresh.rewind_afterClose`, `Fresh.rewind_open`).
-/

namespace Httpretry

open Go

namespace RewindableBody

variable {c : RewindableBody}

/-! ## Reading -/

/-- The body is open and can be read. -/
structure Fresh (c : RewindableBody) : Prop where
  waited : c.waited = false
  closeErr : c.origCloseErr = none
  closed : c.origClosed = false
  chan : c.origCloseDone = .empty
  recording : c.recording = none

/-- The original body was read up to `pos'`, and what was read is in the buffer. -/
def recordTo (c : RewindableBody) (pos' : Nat) : RewindableBody :=
  { c with pos := pos', buffer := c.buffer ++ c.orig.slice c.pos pos' }

theorem recordTo_recordTo {mid pos' : Nat} (h : c.pos ≤ mid) (h' : mid ≤ pos') :
    (c.recordTo mid).recordTo pos' = c.recordTo pos' := by
  simp only [recordTo, List.append_assoc, Source.slice_append h h']

theorem Fresh.of_recordTo (h : Fresh c) (pos' : Nat) : Fresh (c.recordTo pos') :=
  ⟨h.waited, h.closeErr, h.closed, h.chan, h.recording⟩

theorem fresh_new (orig : OrigBody) : Fresh (newRewindableBody orig) :=
  ⟨rfl, rfl, rfl, rfl, rfl⟩

theorem Fresh.read (h : Fresh c) (size : Nat) :
    c.read size = .ok (c.orig.read c.pos size, c.recordTo (c.pos + c.orig.count c.pos size)) := by
  rw [recordTo, ← Source.read_fst, ← Source.length_read]
  simp only [RewindableBody.read, h.closeErr, h.closed, Bool.false_eq_true, if_false]

theorem Fresh.reads (h : Fresh c) (sizes : List Nat) :
    c.reads sizes = .ok
      ((c.orig.slice c.pos (c.orig.readTo c.pos sizes), c.orig.reportsEOF c.pos sizes),
        c.recordTo (c.orig.readTo c.pos sizes)) := by
  induction sizes generalizing c with
  | nil =>
    simp [RewindableBody.reads, Source.readTo, Source.reportsEOF, Source.slice_self, recordTo]
  | cons size sizes ih =>
    have hmid := Nat.le_add_right c.pos (c.orig.count c.pos size)
    have hend := Source.le_readTo (s := c.orig.toSource) (c.pos + c.orig.count c.pos size) sizes
    have hrest := ih (h.of_recordTo (c.pos + c.orig.count c.pos size))
    rw [RewindableBody.reads, h.read]
    simp only [Outcome.ok_bind, hrest, Outcome.pure_eq, Source.read_fst]
    rw [Source.readTo, Source.reportsEOF, ← recordTo_recordTo hmid hend,
      ← Source.slice_append hmid hend]
    rfl

/-- The body is a recording of `data`. -/
structure Recorded (c : RewindableBody) (data : Bytes) (i : Nat) : Prop where
  waited : c.waited = true
  closeErr : c.origCloseErr = none
  closed : c.origClosed = true
  recording : c.recording = some (data, i)

theorem Recorded.reads {data : Bytes} {i : Nat} (h : Recorded c data i) (sizes : List Nat) :
    ∃ c', c.reads sizes = .ok
        (((Source.ofBytes data).slice i ((Source.ofBytes data).readTo i sizes),
          (Source.ofBytes data).reportsEOF i sizes), c') ∧
      Recorded c' data ((Source.ofBytes data).readTo i sizes) := by
  induction sizes generalizing c i with
  | nil =>
    refine ⟨c, ?_, h⟩
    rw [RewindableBody.reads, Source.readTo, Source.slice_self]
    rfl
  | cons size sizes ih =>
    have hread : c.read size = .ok ((Source.ofBytes data).read i size,
        { c with recording := some (data, i + (Source.ofBytes data).count i size) }) := by
      rw [← Source.length_read]
      simp only [RewindableBody.read, h.closeErr, h.closed, h.recording, if_true]
    obtain ⟨c', hrest, hc'⟩ := ih (c := { c with
      recording := some (data, i + (Source.ofBytes data).count i size) })
      ⟨h.waited, h.closeErr, h.closed, rfl⟩
    refine ⟨c', ?_, hc'⟩
    rw [RewindableBody.reads, hread]
    simp only [Outcome.ok_bind, hrest, Outcome.pure_eq, Source.read_fst]
    rw [Source.slice_append (Nat.le_add_right _ _) (Source.le_readTo _ sizes)]
    rfl

theorem offers_of_reads {s : Source}
    (h : ∀ sizes, ∃ c', c.reads sizes =
      .ok ((s.slice 0 (s.readTo 0 sizes), s.reportsEOF 0 sizes), c')) : c.Offers s.data := by
  intro sizes
  obtain ⟨c', hc'⟩ := h sizes
  refine ⟨_, c', hc', ?_, fun heof => ?_, fun henough => ?_⟩
  · rw [Source.slice_zero]
    exact List.take_prefix _ _
  · rw [Source.slice_zero, Source.readTo_of_reportsEOF (Nat.zero_le _) heof, List.take_length]
  · exact Source.reportsEOF_of_enough henough

theorem offers_new (orig : OrigBody) : (newRewindableBody orig).Offers orig.data :=
  offers_of_reads fun sizes => ⟨_, (fresh_new orig).reads sizes⟩

theorem Recorded.eq_of_offers {data data' : Bytes} {i : Nat} (h : Recorded c data i)
    (hi : i ≤ data.length) (hoffers : c.Offers data') : data' = data.drop i := by
  -- enough reads of one byte each to be behind the end
  obtain ⟨r, c', hr, -, hend, henough⟩ := hoffers (List.replicate (data'.length + 1) 1)
  obtain ⟨c'', hreads, -⟩ := h.reads (List.replicate (data'.length + 1) 1)
  rw [hreads, Outcome.ok.injEq, Prod.mk.injEq] at hr
  obtain ⟨rfl, -⟩ := hr
  have heof := henough (by simp)
  rw [← hend heof]
  dsimp only
  rw [Source.readTo_of_reportsEOF (s := Source.ofBytes data) hi heof]
  exact List.take_of_length_le (List.length_drop ..).le

theorem Recorded.offers_iff {data : Bytes} {i : Nat} (h : Recorded c data i)
    (hi : i ≤ data.length) : c.Offers data ↔ i = 0 := by
  constructor
  · intro hoffers
    have hlen := congrArg List.length (h.eq_of_offers hi hoffers)
    rw [List.length_drop] at hlen
    omega
  · rintro rfl
    refine offers_of_reads (s := Source.ofBytes data) fun sizes => ?_
    obtain ⟨c', hc', -⟩ := h.reads sizes
    exact ⟨c', hc'⟩

/-! ## Closing and rewinding -/

theorem closeTimes_of_closed (h : c.origClosed = true) (n : Nat) : c.closeTimes n = .ok c := by
  induction n with
  | zero => rfl
  | succ n ih => simp [closeTimes, close, h, ih]

theorem Recorded.use {data : Bytes} {i : Nat} (h : Recorded c data i) (u : Use) :
    ∃ c', c.use u = .ok c' ∧ Recorded c' data ((Source.ofBytes data).readTo i u.sizes) := by
  obtain ⟨c', hreads, hc'⟩ := h.reads u.sizes
  refine ⟨c', ?_, hc'⟩
  rw [RewindableBody.use, hreads]
  exact closeTimes_of_closed hc'.closed u.closes

/-- A recording is rewound at once; what is read after that is missing for the next attempt. -/
theorem Recorded.rewind {data : Bytes} {i : Nat} (h : Recorded c data i) (late : Use) :
    ∃ c', c.rewind late = .ok (some (none, c')) ∧
      Recorded c' data ((Source.ofBytes data).readTo 0 late.sizes) := by
  have hend : c.startRewind.endRewind = some (none, { c with recording := some (data, 0) }) := by
    simp [startRewind, endRewind, waitForOrigClose, h.waited, h.closeErr, h.recording]
  obtain ⟨c', huse, hc'⟩ := Recorded.use (c := { c with recording := some (data, 0) })
    ⟨h.waited, h.closeErr, h.closed, rfl⟩ late
  refine ⟨c', ?_, hc'⟩
  simp only [RewindableBody.rewind, hend, huse, Outcome.ok_bind, Outcome.pure_eq]

theorem Recorded.resends_rest_iff {data : Bytes} {i : Nat} (h : Recorded c data i)
    (as : List Attempt) :
    Resends data c as ↔
      ∀ b ∈ as.dropLast, (Source.ofBytes data).readTo 0 b.late.sizes = 0 := by
  induction as generalizing c i with
  | nil => simp [Resends]
  | cons a as ih =>
    obtain ⟨c', hbefore, hc'⟩ := h.use a.before
    cases as with
    | nil =>
      obtain ⟨c'', hlate, -⟩ := hc'.use a.late
      exact iff_of_true ⟨c', c'', hbefore, hlate⟩ (by simp)
    | cons next as =>
      obtain ⟨c'', hrewind, hc''⟩ := hc'.rewind a.late
      have hoffers := hc''.offers_iff (Source.readTo_le (s := Source.ofBytes data)
        (Nat.zero_le _) a.late.sizes)
      rw [List.dropLast_cons_cons, List.forall_mem_cons, ← hoffers, ← ih hc'']
      constructor
      · rintro ⟨d, d', hd, hd', hrest⟩
        rw [hbefore, Outcome.ok.injEq] at hd
        subst hd
        rw [hrewind, Outcome.ok.injEq, Option.some.injEq, Prod.mk.injEq] at hd'
        obtain ⟨-, rfl⟩ := hd'
        exact hrest
      · intro hrest
        exact ⟨c', c'', hbefore, hrewind, hrest⟩

/-! ## The first attempt -/

/-- The body after its first `Close`. -/
def afterClose (c : RewindableBody) : RewindableBody :=
  { c with origCloseDone := .closed c.orig.closeErr }

/-- The body after the reads of `u`. -/
def afterReads (c : RewindableBody) (u : Use) : RewindableBody :=
  c.recordTo (c.orig.readTo c.pos u.sizes)

/-- A second `Close` sends on the channel that the first one has closed. -/
theorem Fresh.use_cases (h : Fresh c) (u : Use) :
    Fresh (c.afterReads u) ∧
      ((u.closes = 0 ∧ c.use u = .ok (c.afterReads u)) ∨
        (u.closes = 1 ∧ c.use u = .ok (c.afterReads u).afterClose) ∨
        (2 ≤ u.closes ∧ c.use u = .panic)) := by
  have hafter : Fresh (c.afterReads u) := h.of_recordTo _
  have huse : c.use u = (c.afterReads u).closeTimes u.closes := by
    rw [use, h.reads]
    rfl
  refine ⟨hafter, ?_⟩
  rw [huse]
  match u.closes with
  | 0 => exact .inl ⟨rfl, rfl⟩
  | 1 =>
    exact .inr (.inl ⟨rfl, by simp [closeTimes, close, hafter.closed, hafter.chan, afterClose]⟩)
  | n + 2 =>
    exact .inr (.inr ⟨by omega, by simp [closeTimes, close, hafter.closed, hafter.chan]⟩)

theorem Fresh.use_afterClose (h : Fresh c) {u : Use} (hsizes : u.sizes = []) :
    c.afterClose.use u = if u.closes = 0 then .ok c.afterClose else .panic := by
  rw [use, hsizes]
  cases u.closes with
  | zero => rfl
  | succ n => simp [RewindableBody.reads, closeTimes, close, afterClose, h.closed]

theorem Fresh.resends_single (h : Fresh c) (data : Bytes) (a : Attempt) :
    Resends data c [a] ↔ a.before.closes + a.late.closes = 1 := by
  have hpos := a.closes_pos
  obtain ⟨hmid, ⟨hzero, huse⟩ | ⟨hone, huse⟩ | ⟨htwo, huse⟩⟩ := h.use_cases a.before
  · simp only [Resends, huse, Outcome.ok.injEq, exists_and_left, exists_eq_left']
    obtain ⟨-, ⟨hlate, huse'⟩ | ⟨hlate, huse'⟩ | ⟨hlate, huse'⟩⟩ := hmid.use_cases a.late
    · omega
    · exact iff_of_true ⟨_, huse'⟩ (by omega)
    · rw [huse']
      exact iff_of_false (fun ⟨_, hok⟩ => by cases hok) (by omega)
  · simp only [Resends, huse, Outcome.ok.injEq, exists_and_left, exists_eq_left',
      hmid.use_afterClose (a.reads_first (by omega))]
    split
    · exact iff_of_true ⟨_, rfl⟩ (by omega)
    · exact iff_of_false (fun ⟨_, hok⟩ => by cases hok) (by omega)
  · simp only [Resends, huse]
    exact iff_of_false (fun ⟨_, _, hok, _⟩ => by cases hok) (by omega)

/-- The recording of what the first attempt has read. -/
def rewound (c : RewindableBody) : RewindableBody :=
  { c with
    waited := true
    origClosed := true
    origCloseErr := c.orig.closeErr
    origCloseDone := .drained
    recording := some (c.buffer, 0) }

theorem Fresh.rewind_afterClose (h : Fresh c) {late : Use} (hlate : late.sizes = []) :
    c.afterClose.rewind late = .ok (some
      (c.orig.closeErr.map (.errorf "can't rewind body that failed to close: %w" []),
        c.rewound)) := by
  have hend : c.afterClose.startRewind.endRewind =
      some (c.orig.closeErr.map (.errorf "can't rewind body that failed to close: %w" []),
        c.rewound) := by
    cases hclose : c.orig.closeErr <;>
      simp [startRewind, endRewind, waitForOrigClose, afterClose, rewound, h.waited, hclose]
  have huse : c.rewound.use late = .ok c.rewound := by
    rw [use, hlate]
    exact closeTimes_of_closed rfl late.closes
  simp only [rewind, hend, huse, Outcome.ok_bind, Outcome.pure_eq]

/-- If `Rewind` is called before the body is closed, it never returns: a `Close` finds the body
counted as closed and sends nothing. -/
theorem Fresh.rewind_open (h : Fresh c) (late : Use) (r : Option Err × RewindableBody) :
    c.rewind late ≠ .ok (some r) := by
  have hstart : c.startRewind = { c with origClosed := true } := by simp [startRewind, h.waited]
  have hend : c.startRewind.endRewind = none := by
    simp [hstart, endRewind, waitForOrigClose, h.waited, h.chan]
  rw [rewind, hend]
  cases hsizes : late.sizes with
  | nil =>
    have huse : c.startRewind.use late = .ok c.startRewind := by
      rw [use, hsizes]
      exact closeTimes_of_closed (by rw [hstart]) late.closes
    simp only [huse, Outcome.ok_bind, hend, Outcome.pure_eq]
    simp
  | cons size sizes =>
    have huse : c.startRewind.use late = .panic := by
      simp [use, hsizes, RewindableBody.reads, RewindableBody.read, hstart, h.closeErr, h.recording]
    simp [huse]

/-- Every retry resends the whole body if and only if the first attempt has read it and closed it
once before it is rewound, and no later attempt goes on reading after that. -/
theorem resends_iff (orig : OrigBody) (attempts : List Attempt) :
    (newRewindableBody orig).Offers orig.data ∧
      (Resends orig.data (newRewindableBody orig) attempts ↔ Replayable orig attempts) := by
  refine ⟨offers_new orig, ?_⟩
  have hnew := fresh_new orig
  match attempts with
  | [] => exact Iff.rfl
  | [a] => exact hnew.resends_single orig.data a
  | a :: next :: as =>
    have hle := Source.readTo_le (Nat.zero_le orig.data.length) a.before.sizes
    rw [Resends, Replayable]
    obtain ⟨hmid, ⟨hzero, huse⟩ | ⟨hone, huse⟩ | ⟨htwo, huse⟩⟩ := hnew.use_cases a.before
    · refine iff_of_false ?_ (by omega)
      rintro ⟨c', c'', hc', hrewind, -⟩
      rw [huse] at hc'
      cases hc'
      exact hmid.rewind_open _ _ hrewind
    · have hrewind := hmid.rewind_afterClose (a.reads_first (by omega))
      have hrecorded : orig.closeErr = none → Recorded
          ((newRewindableBody orig).afterReads a.before).rewound
          (orig.data.take (orig.readTo 0 a.before.sizes)) 0 := by
        intro hclose
        exact ⟨rfl, hclose, rfl, rfl⟩
      constructor
      · rintro ⟨c', c'', hc', hc'', hoffers, hrest⟩
        rw [huse] at hc'
        cases hc'
        rw [hrewind, Outcome.ok.injEq, Option.some.injEq, Prod.mk.injEq,
          Option.map_eq_none_iff] at hc''
        obtain ⟨hclose, rfl⟩ := hc''
        -- the body offers what was recorded, and nothing else
        have hall := congrArg List.length
          ((hrecorded hclose).eq_of_offers (Nat.zero_le _) hoffers)
        rw [List.drop_zero, List.length_take] at hall
        have hend : orig.readTo 0 a.before.sizes = orig.data.length := by omega
        have hfull := hrecorded hclose
        rw [hend, List.take_length] at hfull
        exact ⟨⟨hone, hclose, hend⟩, (hfull.resends_rest_iff _).1 hrest⟩
      · rintro ⟨⟨-, hclose, hend⟩, hlate⟩
        have hfull := hrecorded hclose
        rw [hend, List.take_length] at hfull
        refine ⟨_, _, huse, ?_, (hfull.offers_iff (Nat.zero_le _)).2 rfl,
          (hfull.resends_rest_iff _).2 hlate⟩
        rw [hrewind, show ((newRewindableBody orig).afterReads a.before).orig.closeErr = none
          from hclose]
        rfl
    · refine iff_of_false ?_ (by omega)
      rintro ⟨c', -, hc', -⟩
      rw [huse] at hc'
      cases hc'

/-- A body of three bytes. -/
def threeBytes : OrigBody := { Source.ofBytes [1, 2, 3] with closeErr := none }

/-- An attempt that is over when `Rewind` is called. -/
def done (sizes : List Nat) (closes : Nat) (h : 0 < closes) : Attempt :=
  ⟨⟨sizes, closes⟩, ⟨[], 0⟩, fun _ => rfl, h⟩

/-- An attempt that has read the body when `Rewind` is called, and then closes it. -/
def closesLate : Attempt := ⟨⟨[4], 0⟩, ⟨[], 1⟩, fun _ => rfl, by decide⟩

/-- A second `Close` panics; after an attempt that has read one byte, the next one gets that byte
and the end of the body; and `Rewind` waits for ever if the body is closed only after the call. -/
theorem body_not_resent :
    (newRewindableBody threeBytes).use ⟨[4], 2⟩ = .panic ∧
      (∃ c c', (newRewindableBody threeBytes).use ⟨[1], 1⟩ = .ok c ∧
        c.rewind ⟨[], 0⟩ = .ok (some (none, c')) ∧
        ∃ c'', c'.reads [4, 4] = .ok (([1], true), c'')) ∧
      (∃ c, (newRewindableBody threeBytes).use closesLate.before = .ok c ∧
        c.rewind closesLate.late = .ok none) ∧
      ¬ Resends [1, 2, 3] (newRewindableBody threeBytes) [done [4] 2 (by decide)] ∧
      ¬ Resends [1, 2, 3] (newRewindableBody threeBytes)
        [done [1] 1 (by decide), done [4, 4] 1 (by decide)] ∧
      ¬ Resends [1, 2, 3] (newRewindableBody threeBytes)
        [closesLate, done [4, 4] 1 (by decide)] := by
  refine ⟨rfl, ⟨_, _, rfl, rfl, _, rfl⟩, ⟨_, rfl, rfl⟩, ?_, ?_, ?_⟩
  · rintro ⟨c, -, huse, -⟩
    cases huse
  · rintro ⟨c, c', huse, hrewind, hoffers, -⟩
    cases huse
    cases hrewind
    obtain ⟨r, c'', hreads, -, hend, -⟩ := hoffers [4, 4]
    cases hreads
    exact absurd (hend rfl) (by decide)
  · rintro ⟨c, c', huse, hrewind, -⟩
    cases huse
    cases hrewind

end RewindableBody

end Httpretry
