import Mathlib.Data.List.AList
import Mathlib.Logic.Embedding.Basic

/-!
# Encoding tables

A table is encoded entry by entry, under the texts of its keys (`encodeTable`), and read back entry
by entry in whatever order the entries come (`decodeTable`). If every entry of a table reads back,
so does the table, from any table with the same entries (`decodeTable_encodeTable`); and every
entry of a table that was read was read from some entry (`of_decodeTable`).
-/

theorem Except.bind_eq_ok_iff {ε α β : Type} {x : Except ε α} {f : α → Except ε β} {b : β} :
    x >>= f = .ok b ↔ ∃ a, x = .ok a ∧ f a = .ok b := by
  cases x with
  | error e => simp [bind, Except.bind]
  | ok a => simp [bind, Except.bind]

theorem Except.mapError_eq_ok_iff {ε ε' α : Type} {x : Except ε α} {g : ε → ε'} {a : α} :
    x.mapError g = .ok a ↔ x = .ok a := by
  cases x <;> simp [Except.mapError]

namespace Codec

variable {ε K V J W : Type} [DecidableEq K] [DecidableEq J]

/-- The table under the texts of its keys. -/
def encodeTable (text : K ↪ J) (encode : K → V → W) (t : AList fun _ : K => V) :
    AList fun _ : J => W where
  entries := t.entries.map fun e => ⟨text e.1, encode e.1 e.2⟩
  nodupKeys := by
    have hkeys : (t.entries.map fun e => (⟨text e.1, encode e.1 e.2⟩ : Σ _ : J, W)).keys =
        t.keys.map text := by
      simp [List.keys, AList.keys]
    rw [List.NodupKeys, hkeys]
    exact t.keys_nodup.map text.injective

theorem lookup_encodeTable {text : K ↪ J} {encode : K → V → W} {t : AList fun _ : K => V} {j : J}
    {w : W} :
    (encodeTable text encode t).lookup j = some w ↔
      ∃ k v, t.lookup k = some v ∧ text k = j ∧ encode k v = w := by
  rw [← Option.mem_def, AList.mem_lookup_iff]
  simp only [encodeTable, List.mem_map, Sigma.mk.injEq, heq_eq_eq]
  constructor
  · rintro ⟨⟨k, v⟩, hmem, hj, hw⟩
    exact ⟨k, v, AList.mem_lookup_iff.2 hmem, hj, hw⟩
  · rintro ⟨k, v, hlookup, hj, hw⟩
    exact ⟨⟨k, v⟩, AList.mem_lookup_iff.1 hlookup, hj, hw⟩

/-- One entry is read and put into the table. -/
def decodeEntry (decode : J → W → Except ε (K × V)) (t : AList fun _ : K => V)
    (e : Σ _ : J, W) : Except ε (AList fun _ : K => V) := do
  let (k, v) ← decode e.1 e.2
  return t.insert k v

/-- The entries are read in the order in which the table has them. -/
def decodeTable (decode : J → W → Except ε (K × V)) (t : AList fun _ : J => W) :
    Except ε (AList fun _ : K => V) :=
  t.entries.foldlM (decodeEntry decode) ∅

omit [DecidableEq J] in
theorem of_foldlM_decodeEntry {decode : J → W → Except ε (K × V)} {P : K → V → Prop}
    (hP : ∀ j w k v, decode j w = .ok (k, v) → P k v) {l : List (Σ _ : J, W)}
    {t t' : AList fun _ : K => V} (ht : ∀ k v, t.lookup k = some v → P k v)
    (h : l.foldlM (decodeEntry decode) t = .ok t') : ∀ k v, t'.lookup k = some v → P k v := by
  induction l generalizing t with
  | nil =>
    cases h
    exact ht
  | cons e l ih =>
    rw [List.foldlM_cons, Except.bind_eq_ok_iff] at h
    obtain ⟨t₁, hentry, hrest⟩ := h
    obtain ⟨⟨k, v⟩, hdecode, hinsert⟩ := Except.bind_eq_ok_iff.1 hentry
    cases hinsert
    refine ih (fun j w hlookup => ?_) hrest
    by_cases hj : j = k
    · subst hj
      rw [AList.lookup_insert] at hlookup
      cases hlookup
      exact hP _ _ _ _ hdecode
    · rw [AList.lookup_insert_ne hj] at hlookup
      exact ht j w hlookup

omit [DecidableEq J] in
theorem of_decodeTable {decode : J → W → Except ε (K × V)} {P : K → V → Prop}
    (hP : ∀ j w k v, decode j w = .ok (k, v) → P k v) {t : AList fun _ : J => W}
    {t' : AList fun _ : K => V} (h : decodeTable decode t = .ok t') :
    ∀ k v, t'.lookup k = some v → P k v :=
  of_foldlM_decodeEntry hP (fun k v hlookup => by cases hlookup) h

/-- Entries that encode entries of `s` are read, and put where `s` has them. -/
theorem foldlM_decodeEntry {text : K ↪ J} {encode : K → V → W}
    {decode : J → W → Except ε (K × V)} {s : AList fun _ : K => V}
    (hdecode : ∀ k v, s.lookup k = some v → decode (text k) (encode k v) = .ok (k, v))
    {l : List (Σ _ : J, W)}
    (hl : ∀ e ∈ l, ∃ k v, s.lookup k = some v ∧ text k = e.1 ∧ encode k v = e.2)
    (t : AList fun _ : K => V) :
    ∃ t', l.foldlM (decodeEntry decode) t = .ok t' ∧
      ∀ k, t'.lookup k = if text k ∈ l.keys then s.lookup k else t.lookup k := by
  induction l generalizing t with
  | nil => exact ⟨t, rfl, fun k => by simp⟩
  | cons e l ih =>
    obtain ⟨k, v, hlookup, hj, hw⟩ := hl e List.mem_cons_self
    obtain ⟨t', hrest, hentries⟩ := ih (fun e he => hl e (List.mem_cons_of_mem _ he))
      (t.insert k v)
    refine ⟨t', ?_, fun i => ?_⟩
    · rw [List.foldlM_cons, decodeEntry, ← hj, ← hw, hdecode k v hlookup]
      exact hrest
    · simp only [hentries, List.keys_cons, List.mem_cons, ← hj, text.apply_eq_iff_eq]
      by_cases hi : i = k
      · subst hi
        rw [AList.lookup_insert, hlookup]
        simp
      · rw [AList.lookup_insert_ne hi]
        simp [hi]

/-- A table whose entries read back reads back, in any order of the entries. -/
theorem decodeTable_encodeTable {text : K ↪ J} {encode : K → V → W}
    (decode : J → W → Except ε (K × V)) {s : AList fun _ : K => V}
    (hdecode : ∀ k v, s.lookup k = some v → decode (text k) (encode k v) = .ok (k, v))
    {t : AList fun _ : J => W} (ht : ∀ j, t.lookup j = (encodeTable text encode s).lookup j) :
    ∃ s', decodeTable decode t = .ok s' ∧ ∀ k, s'.lookup k = s.lookup k := by
  obtain ⟨s', hs', hlookup⟩ := foldlM_decodeEntry hdecode (l := t.entries) (fun e he => by
    have hmem : t.lookup e.1 = some e.2 := AList.mem_lookup_iff.2 he
    exact lookup_encodeTable.1 ((ht e.1).symm.trans hmem)) ∅
  refine ⟨s', hs', fun k => ?_⟩
  rw [hlookup]
  split
  · rfl
  · next hk =>
    -- a key whose text is not among the entries is not a key of the table
    cases hs : s.lookup k with
    | none => rfl
    | some v =>
      have hsome := (ht (text k)).trans (lookup_encodeTable.2 ⟨k, v, hs, rfl, rfl⟩)
      exact absurd (AList.lookup_isSome.1 (by rw [hsome]; rfl)) hk

end Codec
