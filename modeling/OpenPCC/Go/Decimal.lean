import Mathlib.Data.Nat.Digits.Lemmas
import OpenPCC.Go.Error

/-!
# Decimal texts of numbers (`strconv.FormatInt`, `strconv.ParseInt`)

`parseInt` reads a sign and digits and rejects what an `int64` cannot hold. It reads back what
`formatInt` writes (`parseInt_formatInt`).
-/

namespace Decimal

open Go

/-- The digit of `n < 10`. -/
def digit (n : Nat) : UInt8 := UInt8.ofNat (48 + n)

def formatNat (n : Nat) : Bytes :=
  if n = 0 then [digit 0] else ((Nat.digits 10 n).map digit).reverse

/-- `strconv.FormatInt(i, 10)`; `'-'` is byte 45. -/
def formatInt (i : Int) : Bytes := if i < 0 then 45 :: formatNat i.natAbs else formatNat i.natAbs

/-- The value of a digit. -/
def value (c : UInt8) : Option Nat :=
  if 48 ≤ c.toNat ∧ c.toNat ≤ 57 then some (c.toNat - 48) else none

def errSyntax : Err := .new "invalid syntax" []

def errRange : Err := .new "value out of range" []

def maxUint64 : Nat := 2 ^ 64 - 1

/-- The loop of `ParseUint` with the number read so far. -/
def parseDigits (n : Nat) : Bytes → Except Err Nat
  | [] => .ok n
  | c :: s =>
    match value c with
    | none => .error errSyntax
    | some d => if n * 10 + d > maxUint64 then .error errRange else parseDigits (n * 10 + d) s

/-- `strconv.ParseUint(s, 10, 64)`, without the text around the error. -/
def parseUint (s : Bytes) : Except Err Nat := if s = [] then .error errSyntax else parseDigits 0 s

/-- The digits behind the sign: `int64` goes one further below zero. -/
def parseSigned (neg : Bool) (s : Bytes) : Except Err Int :=
  match parseUint s with
  | .error e => .error e
  | .ok un =>
    if neg then if un > 2 ^ 63 then .error errRange else .ok (-un)
    else if un ≥ 2 ^ 63 then .error errRange else .ok un

/-- `strconv.ParseInt(s, 10, 64)`; `'+'` is byte 43. -/
def parseInt (s : Bytes) : Except Err Int :=
  (match s with
    | 45 :: s => parseSigned true s
    | 43 :: s => parseSigned false s
    | s => parseSigned false s).mapError (.errorf "strconv.ParseInt: parsing %q: %w" [.str s])

theorem value_digit {n : Nat} (hn : n < 10) : value (digit n) = some n := by
  have hall : ∀ m : Fin 10, value (digit m) = some m.val := by decide
  exact hall ⟨n, hn⟩

/-- Digits, the last one first, that are written in front of a text. -/
theorem parseDigits_append {ds : List Nat} (hds : ∀ d ∈ ds, d < 10)
    (hmax : Nat.ofDigits 10 ds ≤ maxUint64) (s : Bytes) :
    parseDigits 0 ((ds.map digit).reverse ++ s) = parseDigits (Nat.ofDigits 10 ds) s := by
  induction ds generalizing s with
  | nil => rfl
  | cons d ds ih =>
    have hd : d < 10 := hds d List.mem_cons_self
    rw [Nat.ofDigits_cons] at hmax ⊢
    rw [List.map_cons, List.reverse_cons, List.append_assoc,
      ih (fun e he => hds e (List.mem_cons_of_mem _ he)) (by omega)]
    show parseDigits _ (digit d :: s) = _
    rw [parseDigits, value_digit hd]
    simp only
    rw [if_neg (by omega)]
    congr 1
    omega

theorem parseUint_formatNat {n : Nat} (hn : n ≤ maxUint64) : parseUint (formatNat n) = .ok n := by
  unfold formatNat
  split
  · next h =>
    subst h
    rfl
  · next h =>
    have hdigits := Nat.ofDigits_digits 10 n
    have hne : ((Nat.digits 10 n).map digit).reverse ≠ [] := by
      simpa [Nat.digits_eq_nil_iff_eq_zero] using h
    rw [parseUint, if_neg hne, ← List.append_nil ((Nat.digits 10 n).map digit).reverse,
      parseDigits_append (fun d hd => Nat.digits_lt_base (by decide) hd) (by omega), hdigits]
    rfl

theorem formatNat_eq_cons (n : Nat) : ∃ d s, d < 10 ∧ formatNat n = digit d :: s := by
  unfold formatNat
  split
  · exact ⟨0, [], by decide, rfl⟩
  · next h =>
    have hne : Nat.digits 10 n ≠ [] := Nat.digits_ne_nil_iff_ne_zero.2 h
    refine ⟨(Nat.digits 10 n).getLast hne, ((Nat.digits 10 n).dropLast.map digit).reverse,
      Nat.digits_lt_base (by decide) (List.getLast_mem hne), ?_⟩
    conv_lhs => rw [← List.dropLast_append_getLast hne]
    rw [List.map_append, List.reverse_append]
    rfl

theorem digit_ne_sign {d : Nat} (hd : d < 10) : digit d ≠ 45 ∧ digit d ≠ 43 := by
  have hall : ∀ m : Fin 10, digit m ≠ 45 ∧ digit m ≠ 43 := by decide
  exact hall ⟨d, hd⟩

theorem parseInt_formatInt {i : Int} (hmin : -2 ^ 63 ≤ i) (hmax : i < 2 ^ 63) :
    parseInt (formatInt i) = .ok i := by
  have hparse : parseUint (formatNat i.natAbs) = .ok i.natAbs :=
    parseUint_formatNat (by unfold maxUint64; omega)
  unfold formatInt
  split
  · next hneg =>
    simp only [parseInt, parseSigned, hparse, if_true]
    rw [if_neg (by omega)]
    show Except.ok (-(i.natAbs : Int)) = _
    congr 1
    omega
  · next hpos =>
    obtain ⟨d, s, hd, hs⟩ := formatNat_eq_cons i.natAbs
    obtain ⟨hminus, hplus⟩ := digit_ne_sign hd
    have hsigned : parseInt (formatNat i.natAbs) =
        (parseSigned false (formatNat i.natAbs)).mapError
          (.errorf "strconv.ParseInt: parsing %q: %w" [.str (formatNat i.natAbs)]) := by
      rw [hs]
      unfold parseInt
      split
      · next h => exact absurd (List.cons.inj h).1 hminus
      · next h => exact absurd (List.cons.inj h).1 hplus
      · rfl
    rw [hsigned]
    simp only [parseSigned, hparse, Bool.false_eq_true, if_false]
    rw [if_neg (by omega)]
    show Except.ok (i.natAbs : Int) = _
    congr 1
    omega

end Decimal
