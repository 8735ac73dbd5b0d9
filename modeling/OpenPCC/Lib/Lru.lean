import Mathlib.Data.List.Basic

/-!
# Caches of bounded size

`CacheLib` is a library of caches with what its users rely on: a look-up returns only what was added
under its key, and the only entry that was ever added is found (`found`). Nothing is said of which
entry makes room for another. `Lru.lib` is such a library; it keeps the entries used last.
-/

/-- The operations of a library of caches. -/
structure CacheOps (κ ν ε C : Type) where
  new : Int → Except ε C
  get : C → κ → Option ν × C
  add : C → κ → ν → C

namespace CacheOps

variable {κ ν ε C : Type} (ops : CacheOps κ ν ε C)

/-- A look-up of the key returns the value. -/
def Has (c : C) (k : κ) (v : ν) : Prop := (ops.get c k).1 = some v

/-- A cache of the given size to which nothing was added. -/
inductive Untouched (size : Int) : C → Prop where
  | new {c : C} : ops.new size = .ok c → Untouched size c
  | get {c : C} (k : κ) : Untouched size c → Untouched size (ops.get c k).2

/-- A cache of the given size to which one entry was added. -/
inductive Holds (size : Int) (k : κ) (v : ν) : C → Prop where
  | add {c : C} : ops.Untouched size c → Holds size k v (ops.add c k v)
  | get {c : C} (k' : κ) : Holds size k v c → Holds size k v (ops.get c k').2

end CacheOps

structure CacheLib (κ ν ε C : Type) extends CacheOps κ ν ε C where
  new_fails : ∀ size ≤ 0, ∃ err, new size = .error err
  not_has_new : ∀ size c k v, new size = .ok c → ¬ toCacheOps.Has c k v
  has_get : ∀ c k k' v, toCacheOps.Has (get c k).2 k' v → toCacheOps.Has c k' v
  has_add : ∀ c k v k' v', toCacheOps.Has (add c k v) k' v' →
    (k' = k ∧ v' = v) ∨ toCacheOps.Has c k' v'
  found : ∀ size k v c, 0 < size → toCacheOps.Holds size k v c → toCacheOps.Has c k v

theorem CacheLib.size_pos {κ ν ε C : Type} {lib : CacheLib κ ν ε C} {size : Int} {c : C}
    (h : lib.new size = .ok c) : 0 < size := by
  by_contra hle
  obtain ⟨err, herr⟩ := lib.new_fails size (Int.not_lt.1 hle)
  rw [herr] at h
  cases h

structure Lru (κ ν : Type) where
  size : Nat
  /-- the most recently used entry first -/
  entries : List (κ × ν)
  deriving DecidableEq

namespace Lru

variable {κ ν ε : Type} [DecidableEq κ]

/-- The value of a key, which becomes the most recently used one. -/
def get (c : Lru κ ν) (k : κ) : Option ν × Lru κ ν :=
  match c.entries.find? (·.1 = k) with
  | none => (none, c)
  | some e => (some e.2, { c with entries := e :: c.entries.eraseP (·.1 = k) })

/-- Set the value of a key; the least recently used entry makes room for a new one. -/
def add (c : Lru κ ν) (k : κ) (v : ν) : Lru κ ν :=
  { c with entries := ((k, v) :: c.entries.eraseP (·.1 = k)).take c.size }

variable {c : Lru κ ν} {k k' : κ} {v : ν}

theorem get_fst : (c.get k).1 = (c.entries.find? (·.1 = k)).map (·.2) := by
  unfold get
  cases c.entries.find? (·.1 = k) <;> rfl

theorem find?_eraseP (l : List (κ × ν)) (h : k' ≠ k) :
    (l.eraseP (·.1 = k)).find? (·.1 = k') = l.find? (·.1 = k') := by
  induction l with
  | nil => rfl
  | cons e l ih =>
    by_cases he : e.1 = k
    · simp [he, h.symm]
    · by_cases he' : e.1 = k' <;> simp [he, he', h, ih]

theorem find?_get : (c.get k).2.entries.find? (·.1 = k') = c.entries.find? (·.1 = k') := by
  unfold get
  split
  · rfl
  · next e he =>
    have hkey : e.1 = k := by simpa using List.find?_some he
    by_cases hk : k' = k
    · subst hk
      rw [he]
      simp [hkey]
    · rw [List.find?_cons_of_neg (by simpa [hkey] using Ne.symm hk), find?_eraseP _ hk]

theorem find?_add {e : κ × ν} (h : (c.add k v).entries.find? (·.1 = k') = some e) :
    (k' = k ∧ e = (k, v)) ∨ c.entries.find? (·.1 = k') = some e := by
  have hfind := (List.take_prefix _ _).find?_eq_some h
  by_cases hk : k' = k
  · subst hk
    simp only [List.find?_cons, decide_true, Option.some.injEq] at hfind
    exact .inl ⟨rfl, hfind.symm⟩
  · rw [List.find?_cons_of_neg (by simpa using Ne.symm hk), find?_eraseP _ hk] at hfind
    exact .inr hfind

/-- The operations; `err` is the error for a size that is not positive. -/
def ops (κ ν : Type) [DecidableEq κ] (err : ε) : CacheOps κ ν ε (Lru κ ν) where
  new size := if size ≤ 0 then .error err else .ok ⟨size.toNat, []⟩
  get := get
  add := add

variable {err : ε} {size : Int}

theorem eq_of_new (h : (ops κ ν err).new size = .ok c) : c = ⟨size.toNat, []⟩ := by
  dsimp only [ops] at h
  split at h
  · cases h
  · cases h
    rfl

theorem eq_of_untouched (h : (ops κ ν err).Untouched size c) : c = ⟨size.toNat, []⟩ := by
  induction h with
  | new hnew => exact eq_of_new hnew
  | get k _ ih =>
    rw [ih]
    rfl

theorem eq_of_holds (hsize : 0 < size) (h : (ops κ ν err).Holds size k v c) :
    c = ⟨size.toNat, [(k, v)]⟩ := by
  induction h with
  | add hc =>
    obtain ⟨n, hn⟩ : ∃ n, size.toNat = n + 1 := ⟨size.toNat - 1, by omega⟩
    rw [eq_of_untouched hc]
    simp [ops, add, hn]
  | get k' _ ih =>
    rw [ih]
    by_cases hk : k = k' <;> simp [ops, get, hk]

def lib (κ ν : Type) [DecidableEq κ] (err : ε) : CacheLib κ ν ε (Lru κ ν) where
  toCacheOps := ops κ ν err
  new_fails size hsize := ⟨err, if_pos hsize⟩
  not_has_new size c k v hnew h := by
    rw [eq_of_new hnew] at h
    cases h
  has_get c k k' v h := by
    simp only [CacheOps.Has, ops, get_fst, find?_get] at h ⊢
    exact h
  has_add c k v k' v' h := by
    simp only [CacheOps.Has, ops, get_fst, Option.map_eq_some_iff] at h ⊢
    obtain ⟨e, he, rfl⟩ := h
    obtain ⟨hk, rfl⟩ | hold := find?_add he
    · exact .inl ⟨hk, rfl⟩
    · exact .inr ⟨e, hold, rfl⟩
  found size k v c hsize h := by
    rw [eq_of_holds hsize h]
    simp [CacheOps.Has, ops, get]

end Lru
