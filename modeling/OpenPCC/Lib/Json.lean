import OpenPCC.Lib.Bytes

/-!
# Texts of JSON objects

What of the syntax of JSON says where an object ends: strings, their escapes, and braces outside of
them. A text of an object is a brace, a text that leaves no string and no inner object open, and a
brace. So no text of an object ends in the text of another one (`isObject_suffix`): at the brace
that would begin it, either an inner object begins, and the outer one is still open at the end, or
a string is open, and then each of the two texts is inside a string where the other is not.
-/

namespace Json

/-- Where a text can be cut. -/
inductive Mode where
  | out
  | str
  | esc
  deriving DecidableEq

/-- The bytes that may follow a backslash: `"\/bfnrtu`. -/
def escapes : Bytes := [34, 92, 47, 98, 102, 110, 114, 116, 117]

/-- Read a byte, with the number of inner objects that are open. -/
def step : Mode × Nat → UInt8 → Option (Mode × Nat)
  | (.out, depth), c =>
    if c = 34 then some (.str, depth)
    else if c = 92 then none
    else if c = 123 then some (.out, depth + 1)
    else if c = 125 then
      match depth with
      | 0 => none
      | depth + 1 => some (.out, depth)
    else some (.out, depth)
  | (.str, depth), c =>
    if c = 34 then some (.out, depth) else if c = 92 then some (.esc, depth) else some (.str, depth)
  | (.esc, depth), c => if c ∈ escapes then some (.str, depth) else none

def scan (q : Mode × Nat) (t : Bytes) : Option (Mode × Nat) := t.foldlM step q

/-- A text of an object. -/
def IsObject (t : Bytes) : Prop :=
  ∃ body, t = 123 :: (body ++ [125]) ∧ scan (.out, 0) body = some (.out, 0)

/-- A text of a map: of an object, or `null`. -/
def IsMap (t : Bytes) : Prop := t = [110, 117, 108, 108] ∨ IsObject t

theorem scan_cons (q : Mode × Nat) (c : UInt8) (t : Bytes) :
    scan q (c :: t) = (step q c).bind fun q => scan q t := rfl

theorem scan_append (q : Mode × Nat) (t t' : Bytes) :
    scan q (t ++ t') = (scan q t).bind fun q => scan q t' := by
  unfold scan
  rw [List.foldlM_append]
  rfl

theorem step_add {m m' : Mode} {d d' : Nat} {c : UInt8} (h : step (m, d) c = some (m', d'))
    (k : Nat) : step (m, d + k) c = some (m', d' + k) := by
  cases m with
  | out =>
    simp only [step] at h ⊢
    split_ifs at h ⊢
    · cases h
      rfl
    · cases h
      rw [Nat.add_right_comm]
    · cases d with
      | zero => cases h
      | succ d =>
        cases h
        rw [Nat.add_right_comm]
    · cases h
      rfl
  | str =>
    simp only [step] at h ⊢
    split_ifs at h ⊢ <;> cases h <;> rfl
  | esc =>
    simp only [step] at h ⊢
    split_ifs at h ⊢
    cases h
    rfl

theorem scan_add {m m' : Mode} {d d' : Nat} {t : Bytes} (h : scan (m, d) t = some (m', d'))
    (k : Nat) : scan (m, d + k) t = some (m', d' + k) := by
  induction t generalizing m d with
  | nil =>
    cases h
    rfl
  | cons c t ih =>
    rw [scan_cons, Option.bind_eq_some_iff] at h
    obtain ⟨⟨m₁, d₁⟩, hstep, hrest⟩ := h
    rw [scan_cons, step_add hstep k]
    exact ih hrest

/-- A text that can be read both outside of strings and inside of one ends inside of one in one of
the two readings. -/
theorem scan_out_str {d d' : Nat} {q q' : Mode × Nat} {t : Bytes}
    (h : scan (.out, d) t = some q) (h' : scan (.str, d') t = some q') :
    (q.1 = .out ∧ q'.1 = .str) ∨ (q.1 = .str ∧ q'.1 = .out) := by
  induction t generalizing d d' q q' with
  | nil =>
    cases h
    cases h'
    exact .inl ⟨rfl, rfl⟩
  | cons c t ih =>
    rw [scan_cons, Option.bind_eq_some_iff] at h h'
    obtain ⟨q₁, hstep, hrest⟩ := h
    obtain ⟨q₁', hstep', hrest'⟩ := h'
    simp only [step] at hstep hstep'
    by_cases hquote : c = 34
    · rw [if_pos hquote] at hstep hstep'
      cases hstep
      cases hstep'
      exact (ih hrest' hrest).symm.imp And.symm And.symm
    rw [if_neg hquote] at hstep hstep'
    by_cases hbackslash : c = 92
    · rw [if_pos hbackslash] at hstep
      cases hstep
    rw [if_neg hbackslash] at hstep hstep'
    cases hstep'
    obtain ⟨d₁, rfl⟩ : ∃ d₁, q₁ = (.out, d₁) := by
      split_ifs at hstep
      · cases hstep
        exact ⟨_, rfl⟩
      · split at hstep
        · cases hstep
        · cases hstep
          exact ⟨_, rfl⟩
      · cases hstep
        exact ⟨_, rfl⟩
    exact ih hrest hrest'

theorem isObject_suffix {t t' : Bytes} (h : IsObject t) (h' : IsObject t') (hsuffix : t <:+ t') :
    t = t' := by
  obtain ⟨body, rfl, hscan⟩ := h
  obtain ⟨body', rfl, hscan'⟩ := h'
  obtain ⟨u, hu⟩ := hsuffix
  cases u with
  | nil => exact hu
  | cons c u =>
    have htail : u ++ (123 :: body ++ [125]) = body' ++ [125] := (List.cons.inj hu).2
    rw [← List.append_assoc] at htail
    have hbody := List.append_cancel_right htail
    rw [← hbody, scan_append, Option.bind_eq_some_iff] at hscan'
    obtain ⟨⟨m, d⟩, -, hinner⟩ := hscan'
    rw [scan_cons] at hinner
    cases m with
    | out =>
      -- the outer object is open at the end
      have hnested : scan (.out, d + 1) body = some (.out, 0) := hinner
      have hopen := scan_add hscan (d + 1)
      rw [Nat.zero_add] at hopen
      rw [hopen] at hnested
      cases hnested
    | str =>
      have hstring : scan (.str, d) body = some (.out, 0) := hinner
      obtain ⟨-, hm⟩ | ⟨hm, -⟩ := scan_out_str hscan hstring
      · cases hm
      · cases hm
    | esc => cases hinner

theorem IsObject.getLast?_append {t : Bytes} (h : IsObject t) (u : Bytes) :
    (u ++ t).getLast? = some 125 := by
  obtain ⟨body, rfl, -⟩ := h
  rw [← List.cons_append, ← List.append_assoc]
  exact List.getLast?_concat

theorem isMap_suffix {t t' : Bytes} (h : IsMap t) (h' : IsMap t') (hsuffix : t <:+ t') :
    t = t' := by
  obtain ⟨u, hu⟩ := hsuffix
  have hlast := congrArg List.getLast? hu
  obtain rfl | h := h <;> obtain rfl | h' := h'
  · rfl
  · have hlast' := h'.getLast?_append []
    rw [List.nil_append] at hlast'
    rw [hlast', List.getLast?_append] at hlast
    cases hlast
  · rw [h.getLast?_append u] at hlast
    cases hlast
  · exact isObject_suffix h h' ⟨u, hu⟩

/-- Where the text of a map begins is known from its end. -/
theorem isMap_append_inj {a a' t t' : Bytes} (h : IsMap t) (h' : IsMap t')
    (heq : a ++ t = a' ++ t') : a = a' ∧ t = t' := by
  have hsuffix : t <:+ a' ++ t' := ⟨a, heq⟩
  have ht : t = t' := by
    rcases List.suffix_or_suffix_of_suffix hsuffix (List.suffix_append a' t') with hle | hle
    · exact isMap_suffix h h' hle
    · exact (isMap_suffix h' h hle).symm
  rw [ht] at heq
  exact ⟨List.append_cancel_right heq, ht⟩

end Json
