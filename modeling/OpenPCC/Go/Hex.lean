import OpenPCC.Go.Error

/-!
# Hexadecimal texts (`encoding/hex`)

`decodeString` reads digits of either case, and `encodeToString` writes lower-case ones: reading
gives back what was written (`decodeString_encodeToString`), and writing gives back what was read if
it has no upper-case digit (`encodeToString_eq_iff`).
-/

namespace Hex

open Go

/-- The value of a digit. -/
def value (c : UInt8) : Option Nat :=
  if 48 ≤ c.toNat ∧ c.toNat ≤ 57 then some (c.toNat - 48)
  else if 97 ≤ c.toNat ∧ c.toNat ≤ 102 then some (c.toNat - 87)
  else if 65 ≤ c.toNat ∧ c.toNat ≤ 70 then some (c.toNat - 55)
  else none

def invalidByteError (c : UInt8) : Err := .new "encoding/hex: invalid byte: %#U" [.int c.toNat]

def errLength : Err := .new "encoding/hex: odd length hex string" []

/-- `hex.DecodeString`. -/
def decodeString : Bytes → Except Err Bytes
  | [] => .ok []
  | [c] => if (value c).isSome then .error errLength else .error (invalidByteError c)
  | p :: q :: s =>
    match value p, value q with
    | none, _ => .error (invalidByteError p)
    | some _, none => .error (invalidByteError q)
    | some a, some b => (decodeString s).map (UInt8.ofNat (16 * a + b) :: ·)

/-- `'A'` to `'F'`. -/
def IsUpper (c : UInt8) : Prop := 65 ≤ c.toNat ∧ c.toNat ≤ 70

instance : DecidablePred IsUpper := fun _ => inferInstanceAs (Decidable (_ ∧ _))

theorem value_lt {c : UInt8} {n : Nat} (h : value c = some n) : n < 16 := by
  unfold value at h
  split_ifs at h <;> cases h <;> omega

theorem value_digit {n : Nat} (hn : n < 16) : value (digit n) = some n := by
  have hall : ∀ m : Fin 16, value (digit m) = some m.val := by decide
  exact hall ⟨n, hn⟩

/-- Only an upper-case digit is not written as it was read. -/
theorem digit_eq_iff {c : UInt8} {n : Nat} (h : value c = some n) : digit n = c ↔ ¬ IsUpper c := by
  have hlt := c.toNat_lt
  have hn := value_lt h
  rw [← UInt8.toNat_inj, digit, IsUpper]
  unfold value at h
  split_ifs at h <;> cases h <;> simp only [UInt8.toNat_ofNat'] <;> split_ifs <;> omega

theorem decodeString_cons {p q : UInt8} {s h : Bytes} {a b : Nat} (hp : value p = some a)
    (hq : value q = some b) (hs : decodeString s = .ok h) :
    decodeString (p :: q :: s) = .ok (UInt8.ofNat (16 * a + b) :: h) := by
  rw [decodeString, hp, hq, hs]
  rfl

/-- Induction over a text that can be read, two digits at a time. -/
theorem decodeString_induction {motive : Bytes → Bytes → Prop} (nil : motive [] [])
    (cons : ∀ p q s h a b, value p = some a → value q = some b → decodeString s = .ok h →
      motive s h → motive (p :: q :: s) (UInt8.ofNat (16 * a + b) :: h))
    {s h : Bytes} (hdecode : decodeString s = .ok h) : motive s h := by
  induction s using decodeString.induct generalizing h with
  | case1 =>
    cases hdecode
    exact nil
  | case2 c hc => simp [decodeString, hc] at hdecode
  | case3 c hc => simp [decodeString, hc] at hdecode
  | case4 p q s hp => simp [decodeString, hp] at hdecode
  | case5 p q s a hq hp => simp [decodeString, hp, hq] at hdecode
  | case6 p q s a b hq hp ih =>
    cases hs : decodeString s with
    | error e => simp [decodeString, hp, hq, hs, Except.map] at hdecode
    | ok h' =>
      rw [decodeString_cons hp hq hs] at hdecode
      cases hdecode
      exact cons p q s h' a b hp hq hs (ih hs)

theorem length_of_decodeString {s h : Bytes} (hdecode : decodeString s = .ok h) :
    s.length = 2 * h.length := by
  refine decodeString_induction (motive := fun s h => s.length = 2 * h.length) rfl ?_ hdecode
  intro p q s h a b _ _ _ ih
  simp only [List.length_cons, ih]
  omega

theorem value_of_decodeString {s h : Bytes} (hdecode : decodeString s = .ok h) :
    ∀ c ∈ s, ∃ n, value c = some n := by
  refine decodeString_induction (motive := fun s _ => ∀ c ∈ s, ∃ n, value c = some n)
    (by simp) ?_ hdecode
  intro p q s h a b hp hq _ ih
  exact List.forall_mem_cons.2 ⟨⟨a, hp⟩, List.forall_mem_cons.2 ⟨⟨b, hq⟩, ih⟩⟩

theorem decodeString_take {s h : Bytes} (hdecode : decodeString s = .ok h) (n : Nat) :
    decodeString (s.take (2 * n)) = .ok (h.take n) := by
  refine decodeString_induction
    (motive := fun s h => ∀ n, decodeString (s.take (2 * n)) = .ok (h.take n)) ?_ ?_ hdecode n
  · intro n
    rw [List.take_nil, List.take_nil]
    rfl
  · intro p q s h a b hp hq _ ih n
    cases n with
    | zero => rfl
    | succ n => exact decodeString_cons hp hq (ih n)

theorem decodeString_encodeToString (h : Bytes) : decodeString (encodeToString h) = .ok h := by
  induction h with
  | nil => rfl
  | cons x h ih =>
    have hx := x.toNat_lt
    rw [encodeToString_cons, decodeString_cons (value_digit (by omega)) (value_digit (by omega)) ih]
    rw [Nat.div_add_mod, UInt8.ofNat_toNat]

theorem length_encodeToString (h : Bytes) : (encodeToString h).length = 2 * h.length :=
  length_of_decodeString (decodeString_encodeToString h)

theorem encodeToString_eq_iff {s h : Bytes} (hdecode : decodeString s = .ok h) :
    encodeToString h = s ↔ ∀ c ∈ s, ¬ IsUpper c := by
  refine decodeString_induction
    (motive := fun s h => encodeToString h = s ↔ ∀ c ∈ s, ¬ IsUpper c) ?_ ?_ hdecode
  · simp [encodeToString]
  · intro p q s h a b hp hq _ ih
    have ha := value_lt hp
    have hb := value_lt hq
    have hbyte : (UInt8.ofNat (16 * a + b)).toNat = 16 * a + b := by
      rw [UInt8.toNat_ofNat']
      omega
    have hhigh : (16 * a + b) / 16 = a := by omega
    have hlow : (16 * a + b) % 16 = b := by omega
    rw [encodeToString_cons, hbyte, hhigh, hlow, List.forall_mem_cons, List.forall_mem_cons, ← ih,
      ← digit_eq_iff hp, ← digit_eq_iff hq, List.cons.injEq, List.cons.injEq]

end Hex
