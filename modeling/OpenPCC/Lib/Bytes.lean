import Mathlib.Data.List.Basic

/-!
# Byte strings, hexadecimal text and numbers as bytes

Byte slices and strings are lists of bytes. `Hex.encodeToString` is the lower-case hexadecimal
text of a byte string; distinct byte strings have distinct texts (`Hex.encodeToString_inj`), so
a table keyed by the text of its entries' keys is keyed by those keys. Blocks of known lengths
can be read back from their concatenation (`List.flatMap_inj_of_length`). A 32-bit number can be
read back from its four bytes (`BigEndian.uint32_putUint32`, `LittleEndian.uint32_putUint32`), and
four bytes from the number they are (`LittleEndian.putUint32_uint32`).
-/

abbrev Bytes := List UInt8

instance : LawfulBEq Bytes := List.instLawfulBEq

theorem List.flatMap_inj_of_length {ι α : Type} {f g : ι → List α} {l : List ι}
    (hlen : ∀ i ∈ l, (f i).length = (g i).length) (h : l.flatMap f = l.flatMap g) :
    ∀ i ∈ l, f i = g i := by
  induction l with
  | nil => simp
  | cons j l ih =>
    simp only [List.flatMap_cons] at h
    obtain ⟨hj, hl⟩ := List.append_inj h (hlen j (by simp))
    have hrest := ih (fun i hi => hlen i (by simp [hi])) hl
    intro i hi
    obtain rfl | hi := List.mem_cons.1 hi
    · exact hj
    · exact hrest i hi

namespace Hex

/-- The digit of `n < 16`: `'0'` to `'9'`, then `'a'` to `'f'`. -/
def digit (n : Nat) : UInt8 := UInt8.ofNat (if n < 10 then 48 + n else 87 + n)

def encodeToString (b : Bytes) : Bytes :=
  b.flatMap fun x => [digit (x.toNat / 16), digit (x.toNat % 16)]

theorem digit_inj {m n : Nat} (hm : m < 16) (hn : n < 16) (h : digit m = digit n) : m = n := by
  have hall : ∀ a b : Fin 16, digit a = digit b → a = b := by decide
  exact congrArg Fin.val (hall ⟨m, hm⟩ ⟨n, hn⟩ h)

theorem encodeToString_cons (x : UInt8) (b : Bytes) :
    encodeToString (x :: b) = digit (x.toNat / 16) :: digit (x.toNat % 16) :: encodeToString b :=
  rfl

theorem encodeToString_inj {a b : Bytes} (h : encodeToString a = encodeToString b) : a = b := by
  induction a generalizing b with
  | nil =>
    cases b with
    | nil => rfl
    | cons y b => simp [encodeToString] at h
  | cons x a ih =>
    cases b with
    | nil => simp [encodeToString] at h
    | cons y b =>
      simp only [encodeToString_cons, List.cons.injEq] at h
      obtain ⟨hhi, hlo, htl⟩ := h
      have hx := x.toNat_lt
      have hy := y.toNat_lt
      have h1 := digit_inj (by omega) (by omega) hhi
      have h2 := digit_inj (by omega) (by omega) hlo
      have hxy : x = y := UInt8.toNat_inj.1 (by omega)
      rw [hxy, ih htl]

end Hex

/-! ## Big-endian numbers -/

namespace BigEndian

/-- `binary.BigEndian.PutUint32`. -/
def putUint32 (v : UInt32) : Bytes :=
  [UInt8.ofNat (v.toNat >>> 24), UInt8.ofNat (v.toNat >>> 16), UInt8.ofNat (v.toNat >>> 8),
    UInt8.ofNat v.toNat]

/-- `binary.BigEndian.Uint32`. -/
def uint32 (b : Bytes) : UInt32 := UInt32.ofNat (b.foldl (fun n x => 256 * n + x.toNat) 0)

theorem length_putUint32 (v : UInt32) : (putUint32 v).length = 4 := rfl

theorem uint32_putUint32 (v : UInt32) : uint32 (putUint32 v) = v := by
  have hv := v.toNat_lt
  apply UInt32.toNat_inj.1
  simp only [uint32, putUint32, List.foldl_cons, List.foldl_nil, UInt32.toNat_ofNat',
    UInt8.toNat_ofNat', Nat.shiftRight_eq_div_pow]
  omega

end BigEndian

/-! ## Little-endian numbers -/

namespace LittleEndian

/-- `binary.LittleEndian.PutUint32`. -/
def putUint32 (v : UInt32) : Bytes :=
  [UInt8.ofNat v.toNat, UInt8.ofNat (v.toNat >>> 8), UInt8.ofNat (v.toNat >>> 16),
    UInt8.ofNat (v.toNat >>> 24)]

/-- `binary.LittleEndian.Uint32`. -/
def uint32 (b : Bytes) : UInt32 := UInt32.ofNat (b.foldr (fun x n => x.toNat + 256 * n) 0)

theorem length_putUint32 (v : UInt32) : (putUint32 v).length = 4 := rfl

theorem uint32_putUint32 (v : UInt32) : uint32 (putUint32 v) = v := by
  have hv := v.toNat_lt
  apply UInt32.toNat_inj.1
  simp only [uint32, putUint32, List.foldr_cons, List.foldr_nil, UInt32.toNat_ofNat',
    UInt8.toNat_ofNat', Nat.shiftRight_eq_div_pow]
  omega

theorem putUint32_uint32 {b : Bytes} (h : b.length = 4) : putUint32 (uint32 b) = b := by
  obtain ⟨x₀, x₁, x₂, x₃, rfl⟩ := List.length_eq_four.1 h
  have h₀ := x₀.toNat_lt
  have h₁ := x₁.toNat_lt
  have h₂ := x₂.toNat_lt
  have h₃ := x₃.toNat_lt
  simp only [uint32, putUint32, List.foldr_cons, List.foldr_nil, UInt32.toNat_ofNat',
    Nat.shiftRight_eq_div_pow, List.cons.injEq, ← UInt8.toNat_inj, UInt8.toNat_ofNat', and_true]
  omega

end LittleEndian
