import Mathlib.Data.List.DropRight
import OpenPCC.Lib.Bytes

/-!
# Strings as runes

`runes s` are the steps of `for i, r := range s`: an invalid byte counts as the rune U+FFFD of one
byte. `utf8 cs` is the string of the characters `cs`, which `runes` reads back (`runes_utf8`).
A byte below 128 is a rune of its own, and no other byte begins such a rune (`forall_mem_runes`).
`trimSpace` is `strings.TrimSpace`, on the runes: a white-space rune is the same whether it is
found from the left or from the right, since no encoding of a rune contains the start of another.
-/

namespace Go

/-- A rune of a string and the number of its bytes there. -/
structure Rune where
  char : Char
  size : Nat
  deriving DecidableEq, Repr

/-- `utf8.DecodeRuneInString` of a non-empty string. -/
def decodeRune (s : Bytes) : Rune :=
  match s.toByteArray.utf8DecodeChar? 0 with
  | some c => ⟨c, c.utf8Size⟩
  | none => ⟨'�', 1⟩

/-- The runes of a string after its first `skip` bytes. -/
def runesFrom : Nat → Bytes → List Rune
  | _, [] => []
  | skip + 1, _ :: s => runesFrom skip s
  | 0, b :: s => decodeRune (b :: s) :: runesFrom ((decodeRune (b :: s)).size - 1) s

def runes (s : Bytes) : List Rune := runesFrom 0 s

/-- `string(r)`, joined over the runes `cs`. -/
def utf8 (cs : List Char) : Bytes := cs.flatMap String.utf8EncodeChar

/-- `s` is valid UTF-8. -/
def IsText (s : Bytes) : Prop := ∃ cs, s = utf8 cs

/-- `unicode.IsSpace`. -/
def isSpace (c : Char) : Bool :=
  let n := c.toNat
  (0x9 ≤ n && n ≤ 0xD) || n == 0x20 || n == 0x85 || n == 0xA0 || n == 0x1680 ||
    (0x2000 ≤ n && n ≤ 0x200A) || n == 0x2028 || n == 0x2029 || n == 0x202F || n == 0x205F ||
    n == 0x3000

def trimSpace (rs : List Rune) : List Rune :=
  (rs.dropWhile fun r => isSpace r.char).rdropWhile fun r => isSpace r.char

/-! ## Reading back an encoded string -/

theorem utf8_nil : utf8 [] = [] := rfl

theorem utf8_cons (c : Char) (cs : List Char) :
    utf8 (c :: cs) = String.utf8EncodeChar c ++ utf8 cs := rfl

theorem utf8_append (cs ds : List Char) : utf8 (cs ++ ds) = utf8 cs ++ utf8 ds := by
  simp [utf8]

theorem runesFrom_append (s s' : Bytes) : runesFrom s.length (s ++ s') = runesFrom 0 s' := by
  induction s with
  | nil => rfl
  | cons b s ih => exact ih

theorem decodeRune_utf8 (c : Char) (cs : List Char) :
    decodeRune (utf8 (c :: cs)) = ⟨c, c.utf8Size⟩ := by
  have h : (c :: cs).utf8Encode.utf8DecodeChar? 0 = some c := List.utf8DecodeChar?_utf8Encode_cons
  rw [List.utf8Encode] at h
  rw [decodeRune, utf8, h]

theorem runes_utf8 (cs : List Char) : runes (utf8 cs) = cs.map fun c => ⟨c, c.utf8Size⟩ := by
  induction cs with
  | nil => rfl
  | cons c cs ih =>
    have hd := decodeRune_utf8 c cs
    have hlen := String.length_utf8EncodeChar c
    cases he : String.utf8EncodeChar c with
    | nil =>
      have hpos := c.utf8Size_pos
      rw [he, List.length_nil] at hlen
      omega
    | cons b s =>
      -- the bytes of `c` after its first are skipped
      have hs : c.utf8Size - 1 = s.length := by
        rw [← hlen, he, List.length_cons, Nat.add_sub_cancel]
      rw [utf8_cons, he, List.cons_append] at hd ⊢
      rw [runes, runesFrom, hd]
      show ⟨c, c.utf8Size⟩ :: runesFrom (c.utf8Size - 1) (s ++ utf8 cs) = _
      rw [hs, runesFrom_append, List.map_cons]
      exact congrArg _ ih

/-! ## One-byte runes -/

theorem toNat_ofNat_of_lt {n : Nat} (hn : n < 128) : (Char.ofNat n).toNat = n := by
  have hvalid : n.isValidChar := Or.inl (by omega)
  rw [Char.ofNat, dif_pos hvalid]
  rfl

theorem decodeRune_of_lt {b : UInt8} (hb : b.toNat < 128) (s : Bytes) :
    decodeRune (b :: s) = ⟨Char.ofNat b.toNat, 1⟩ := by
  have hval : (Char.ofNat b.toNat).val.toNat = b.toNat := toNat_ofNat_of_lt hb
  have hsize : (Char.ofNat b.toNat).utf8Size = 1 := by
    rw [Char.utf8Size_eq_one_iff, UInt32.le_iff_toNat_le, hval]
    exact Nat.le_of_lt_succ hb
  have henc : String.utf8EncodeChar (Char.ofNat b.toNat) = [b] := by
    rw [String.utf8EncodeChar_eq_singleton hsize, List.cons.injEq]
    refine ⟨UInt8.toNat_inj.1 ?_, rfl⟩
    rw [UInt32.toNat_toUInt8, hval]
    omega
  have hdec : ([b].toByteArray ++ s.toByteArray).utf8DecodeChar? 0 =
      some (Char.ofNat b.toNat) := by
    rw [← henc]
    exact ByteArray.utf8DecodeChar?_utf8EncodeChar_append
  rw [← List.toByteArray_append] at hdec
  rw [decodeRune, ← List.singleton_append, hdec]
  exact congrArg (Rune.mk _) hsize

theorem le_decodeRune {b : UInt8} (hb : 128 ≤ b.toNat) (s : Bytes) :
    128 ≤ (decodeRune (b :: s)).char.toNat := by
  rw [decodeRune]
  split
  · next c hc =>
    -- a shorter character is encoded as one byte, which would be `b`
    by_contra hlt
    have hsize : c.utf8Size = 1 := by
      rw [Char.utf8Size_eq_one_iff, UInt32.le_iff_toNat_le]
      exact Nat.le_of_lt_succ (Nat.lt_of_not_le hlt)
    have heq := congrArg (fun a : ByteArray => a.data.toList)
      (ByteArray.eq_of_utf8DecodeChar?_eq_some hc)
    rw [String.utf8EncodeChar_eq_singleton hsize] at heq
    simp only [ByteArray.data_append, Array.toList_append, List.data_toByteArray] at heq
    have hhead : b = c.val.toUInt8 := (List.cons.inj heq).1
    rw [hhead, UInt32.toNat_toUInt8] at hb
    have hval : c.val.toNat < 128 := Nat.lt_of_not_le hlt
    omega
  · decide

theorem runes_cons_of_lt {b : UInt8} (hb : b.toNat < 128) (s : Bytes) :
    runes (b :: s) = ⟨Char.ofNat b.toNat, 1⟩ :: runes s := by
  rw [runes, runesFrom, decodeRune_of_lt hb]
  rfl

/-- What only one-byte characters have, the runes of a string have if its bytes do. -/
theorem forall_mem_runes {p : Char → Prop} (hp : ∀ c, p c → c.toNat < 128) {s : Bytes} :
    (∀ r ∈ runes s, p r.char) ↔ ∀ b ∈ s, b.toNat < 128 ∧ p (Char.ofNat b.toNat) := by
  induction s with
  | nil => simp [runes, runesFrom]
  | cons b s ih =>
    by_cases hb : b.toNat < 128
    · rw [runes_cons_of_lt hb, List.forall_mem_cons, List.forall_mem_cons, ih]
      simp [hb]
    · have hle := le_decodeRune (Nat.le_of_not_lt hb) s
      refine iff_of_false (fun h => ?_) (fun h => hb (List.forall_mem_cons.1 h).1.1)
      rw [runes, runesFrom, List.forall_mem_cons] at h
      exact absurd (hp _ h.1) (Nat.not_lt.2 hle)

end Go
