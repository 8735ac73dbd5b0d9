import OpenPCC.Cmdline.Parser

/-!
# What a kernel command line can say

Every value `parse` returns is a string of characters, since it is put together from runes
(`parse_values`); and every such string is a value of some command line: quoted, with its quotes
and backslashes escaped (`parse_quoted`).
-/

namespace Cmdline

open Go

/-! ## Values are strings of characters -/

theorem isText_nil : IsText [] := ⟨[], rfl⟩

theorem isText_append {s : Bytes} (h : IsText s) (c : Char) : IsText (s ++ utf8 [c]) := by
  obtain ⟨cs, rfl⟩ := h
  exact ⟨cs ++ [c], by rw [utf8_append]⟩

/-- All values of the map are text. -/
def TextValues (m : Params) : Prop := ∀ k v, m.lookup k = some v → IsText v

theorem TextValues.insert {m : Params} (h : TextValues m) (k : Bytes) {v : Bytes}
    (hv : IsText v) : TextValues (m.insert k v) := by
  intro k' v' hk'
  by_cases he : k' = k
  · subst he
    rw [AList.lookup_insert] at hk'
    rwa [← Option.some.inj hk']
  · rw [AList.lookup_insert_ne he] at hk'
    exact h k' v' hk'

/-- The loop's invariant. -/
structure Parser.Text (p : Parser) : Prop where
  currentValue : IsText p.currentValue
  result : TextValues p.result

theorem Parser.Text.step {p p' : Parser} (h : p.Text) {i : Nat} {r : Char}
    (hs : p.step i r = .ok p') : p'.Text := by
  simp only [Parser.step] at hs
  repeat' split at hs
  all_goals cases hs
  all_goals first
    | exact h
    | exact ⟨isText_append h.currentValue r, h.result⟩
    | exact ⟨h.currentValue, h.result.insert _ isText_nil⟩
    | exact ⟨isText_nil, h.result.insert _ h.currentValue⟩
    | exact ⟨h.currentValue, h.result⟩

theorem Parser.Text.run {p p' : Parser} (h : p.Text) {i : Nat} {rs : List Rune}
    (hr : p.run i rs = .ok p') : p'.Text := by
  induction rs generalizing p i with
  | nil =>
    cases hr
    exact h
  | cons r rs ih =>
    rw [Parser.run] at hr
    split at hr
    · next hs => exact ih (h.step hs) hr
    · cases hr

theorem Parser.Text.finish {p : Parser} (h : p.Text) {m : Params} (hf : p.finish = .ok m) :
    TextValues m := by
  simp only [Parser.finish] at hf
  repeat' split at hf
  all_goals cases hf
  · exact h.result.insert _ isText_nil
  · exact h.result.insert _ h.currentValue
  · exact h.result

theorem parse_values {s : Bytes} {m : Params} (h : parse s = .ok m) : TextValues m := by
  have h0 : Parser.Text {} := ⟨isText_nil, fun k v hk => by simp at hk⟩
  rw [parse] at h
  split at h
  · next p hp => exact (h0.run hp).finish h
  · cases h

/-! ## Every text is a value -/

/-- `c` inside a quoted value. -/
def escape (c : Char) : List Char := if c = '\\' ∨ c = '"' then ['\\', c] else [c]

/-- The runes of a character string. -/
def runesOf (cs : List Char) : List Rune := cs.map fun c => ⟨c, c.utf8Size⟩

theorem run_append {p p' : Parser} {i : Nat} {rs : List Rune} (h : p.run i rs = .ok p') :
    ∃ j, ∀ rs', p.run i (rs ++ rs') = p'.run j rs' := by
  induction rs generalizing p i with
  | nil =>
    cases h
    exact ⟨i, fun rs' => rfl⟩
  | cons r rs ih =>
    rw [Parser.run] at h
    split at h
    · next q hq =>
      obtain ⟨j, hj⟩ := ih h
      refine ⟨j, fun rs' => ?_⟩
      rw [List.cons_append, Parser.run, hq]
      exact hj rs'
    · cases h

theorem run_escape (p : Parser) (hs : p.state = .valueQuoted) (he : p.inEscape = false)
    (i : Nat) (c : Char) :
    p.run i (runesOf (escape c)) = .ok { p with currentValue := p.currentValue ++ utf8 [c] } := by
  obtain ⟨inEscape, currentKey, currentValue, state, result⟩ := p
  cases hs
  cases he
  by_cases hc : c = '\\' ∨ c = '"'
  · obtain rfl | rfl := hc <;> rfl
  · have hc' := not_or.1 hc
    rw [escape, if_neg hc]
    simp [runesOf, Parser.run, Parser.step, hc'.1, hc'.2]

theorem run_escapes (p : Parser) (hs : p.state = .valueQuoted) (he : p.inEscape = false)
    (i : Nat) (cs : List Char) :
    p.run i (runesOf (cs.flatMap escape)) =
      .ok { p with currentValue := p.currentValue ++ utf8 cs } := by
  induction cs generalizing p i with
  | nil => simp [runesOf, Parser.run, utf8_nil]
  | cons c cs ih =>
    obtain ⟨j, hj⟩ := run_append (run_escape p hs he i c)
    have hstep := ih { p with currentValue := p.currentValue ++ utf8 [c] } hs he j
    rw [List.flatMap_cons, runesOf, List.map_append]
    refine (hj _).trans (hstep.trans ?_)
    simp [utf8, List.append_assoc]

theorem trimSpace_eq {c d : Char} (hc : isSpace c = false) (hd : isSpace d = false)
    (cs : List Char) : trimSpace (runesOf (c :: cs ++ [d])) = runesOf (c :: cs ++ [d]) := by
  have hleft : (runesOf (c :: cs ++ [d])).dropWhile (fun r => isSpace r.char) =
      runesOf (c :: cs ++ [d]) := by
    simp [runesOf, hc]
  rw [trimSpace, hleft, runesOf, List.map_append]
  exact List.rdropWhile_concat_neg _ _ _ (by simp [hd])

/-- A text that opens a quoted value for the key `k` and then spells `cs` in quotes assigns `cs`
to `k`. -/
theorem parse_quoted {c : Char} {pre : List Char} {p : Parser} (hc : isSpace c = false)
    (hp : Parser.run {} 0 (runesOf (c :: pre)) = .ok p) (hs : p.state = .valueQuoted)
    (he : p.inEscape = false) (hk : p.currentKey ≠ []) (hv : p.currentValue = [])
    (cs : List Char) :
    ∃ m, parse (utf8 (c :: (pre ++ cs.flatMap escape) ++ ['"'])) = .ok m ∧
      m.lookup p.currentKey = some (utf8 cs) := by
  obtain ⟨j, hj⟩ := run_append hp
  obtain ⟨j', hj'⟩ := run_append (run_escapes p hs he j cs)
  have hend : ∀ i, Parser.run { p with currentValue := p.currentValue ++ utf8 cs } i
      (runesOf ['"']) = .ok { p with currentValue := utf8 cs, state := .value } := by
    intro i
    simp [runesOf, Parser.run, Parser.step, he, hs, hv]
  refine ⟨p.result.insert p.currentKey (utf8 cs), ?_, AList.lookup_insert _⟩
  have hruns : runes (utf8 (c :: (pre ++ cs.flatMap escape) ++ ['"'])) =
      runesOf (c :: (pre ++ cs.flatMap escape) ++ ['"']) := runes_utf8 _
  rw [parse, hruns, trimSpace_eq hc (by decide)]
  have hsplit : runesOf (c :: (pre ++ cs.flatMap escape) ++ ['"']) =
      runesOf (c :: pre) ++ (runesOf (cs.flatMap escape) ++ runesOf ['"']) := by
    simp [runesOf]
  rw [hsplit, hj, hj', hend]
  simp [Parser.finish, he, hk]

end Cmdline
