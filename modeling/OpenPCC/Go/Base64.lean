import OpenPCC.Go.Error

/-!
# Base64 texts (`base64.StdEncoding`)

`encodeToString` writes three bytes as four digits and fills the last group with `=`. `decodeString`
reads a text digit by digit: line breaks are passed over wherever they stand, the padding must be
there and nothing may follow it, and the bits that the padding cuts off are not looked at. What was
written is read back (`decodeString_encodeToString`).
-/

namespace Base64

open Go

/-- The digit of `n < 64`: `'A'` to `'Z'`, `'a'` to `'z'`, `'0'` to `'9'`, `'+'`, `'/'`. -/
def digit (n : Nat) : UInt8 :=
  UInt8.ofNat
    (if n < 26 then 65 + n else if n < 52 then 71 + n else if n < 62 then n - 4
    else if n = 62 then 43 else 47)

/-- The value of a digit. -/
def value (c : UInt8) : Option Nat :=
  if 65 ≤ c.toNat ∧ c.toNat ≤ 90 then some (c.toNat - 65)
  else if 97 ≤ c.toNat ∧ c.toNat ≤ 122 then some (c.toNat - 71)
  else if 48 ≤ c.toNat ∧ c.toNat ≤ 57 then some (c.toNat + 4)
  else if c.toNat = 43 then some 62
  else if c.toNat = 47 then some 63
  else none

/-- `'='`. -/
def padChar : UInt8 := 61

/-- `'\n'` and `'\r'`. -/
def isNewline (c : UInt8) : Bool := c == 10 || c == 13

/-- `base64.StdEncoding.EncodeToString`. -/
def encodeToString : Bytes → Bytes
  | [] => []
  | [a] => [digit (a.toNat / 4), digit (a.toNat % 4 * 16), padChar, padChar]
  | [a, b] =>
    [digit (a.toNat / 4), digit (a.toNat % 4 * 16 + b.toNat / 16), digit (b.toNat % 16 * 4),
      padChar]
  | a :: b :: c :: src =>
    digit (a.toNat / 4) :: digit (a.toNat % 4 * 16 + b.toNat / 16) ::
      digit (b.toNat % 16 * 4 + c.toNat / 64) :: digit (c.toNat % 64) :: encodeToString src

/-- `base64.CorruptInputError`. -/
def corruptInputError (i : Nat) : Err := .new "illegal base64 data at input byte %d" [.int i]

/-- The end of a text behind its padding, from offset `i` on. -/
def decodeEnd (i : Nat) (out : Bytes) : Bytes → Except Err Bytes
  | [] => .ok out
  | c :: src => if isNewline c then decodeEnd (i + 1) out src else .error (corruptInputError i)

/-- The second `=` of a group of two digits, from offset `i` on. -/
def decodePad (i : Nat) (out : Bytes) : Bytes → Except Err Bytes
  | [] => .error (corruptInputError i)
  | c :: src =>
    if isNewline c then decodePad (i + 1) out src
    else if c = padChar then decodeEnd (i + 1) out src
    else .error (corruptInputError (i - 1))

/-- A text from offset `i` on, with the digits of the group that has begun. -/
def decodeFrom (i : Nat) (dbuf : List Nat) : Bytes → Except Err Bytes
  | [] => if dbuf = [] then .ok [] else .error (corruptInputError (i - dbuf.length))
  | c :: src =>
    match value c with
    | some v =>
      match dbuf with
      | [x, y, z] =>
        (decodeFrom (i + 1) [] src).map fun rest =>
          UInt8.ofNat (x * 4 + y / 16) :: UInt8.ofNat (y % 16 * 16 + z / 4) ::
            UInt8.ofNat (z % 4 * 64 + v) :: rest
      | _ => decodeFrom (i + 1) (dbuf ++ [v]) src
    | none =>
      if isNewline c then decodeFrom (i + 1) dbuf src
      else if c = padChar then
        match dbuf with
        | [x, y] => decodePad (i + 1) [UInt8.ofNat (x * 4 + y / 16)] src
        | [x, y, z] =>
          decodeEnd (i + 1) [UInt8.ofNat (x * 4 + y / 16), UInt8.ofNat (y % 16 * 16 + z / 4)] src
        | _ => .error (corruptInputError i)
      else .error (corruptInputError i)

/-- `base64.StdEncoding.DecodeString`. -/
def decodeString (s : Bytes) : Except Err Bytes := decodeFrom 0 [] s

theorem value_digit {n : Nat} (hn : n < 64) : value (digit n) = some n := by
  have hall : ∀ m : Fin 64, value (digit m) = some m.val := by decide
  exact hall ⟨n, hn⟩

theorem value_padChar : value padChar = none := by decide

section
variable {i n x y z : Nat} {src : Bytes}

theorem decodeFrom_digit {dbuf : List Nat} (hdbuf : dbuf.length < 3) (hn : n < 64) :
    decodeFrom i dbuf (digit n :: src) = decodeFrom (i + 1) (dbuf ++ [n]) src := by
  conv_lhs => unfold decodeFrom
  simp only [value_digit hn]
  split
  · simp at hdbuf
  · rfl

theorem decodeFrom_last_digit (hn : n < 64) :
    decodeFrom i [x, y, z] (digit n :: src) =
      (decodeFrom (i + 1) [] src).map fun rest =>
        UInt8.ofNat (x * 4 + y / 16) :: UInt8.ofNat (y % 16 * 16 + z / 4) ::
          UInt8.ofNat (z % 4 * 64 + n) :: rest := by
  rw [decodeFrom, value_digit hn]

end

theorem first_byte (a : UInt8) {b : Nat} (hb : b < 16) :
    UInt8.ofNat (a.toNat / 4 * 4 + (a.toNat % 4 * 16 + b) / 16) = a := by
  have hsum : a.toNat / 4 * 4 + (a.toNat % 4 * 16 + b) / 16 = a.toNat := by omega
  rw [hsum, UInt8.ofNat_toNat]

theorem second_byte (a : Nat) (b : UInt8) {c : Nat} (hc : c < 4) :
    UInt8.ofNat ((a % 4 * 16 + b.toNat / 16) % 16 * 16 + (b.toNat % 16 * 4 + c) / 4) = b := by
  have hb := b.toNat_lt
  have hsum : (a % 4 * 16 + b.toNat / 16) % 16 * 16 + (b.toNat % 16 * 4 + c) / 4 = b.toNat := by
    omega
  rw [hsum, UInt8.ofNat_toNat]

theorem third_byte (b : Nat) (c : UInt8) :
    UInt8.ofNat ((b % 16 * 4 + c.toNat / 64) % 4 * 64 + c.toNat % 64) = c := by
  have hc := c.toNat_lt
  have hsum : (b % 16 * 4 + c.toNat / 64) % 4 * 64 + c.toNat % 64 = c.toNat := by omega
  rw [hsum, UInt8.ofNat_toNat]

/-- A written text is read back from any offset. The induction is on the groups of three bytes. -/
theorem decodeFrom_encodeToString (src : Bytes) (i : Nat) :
    decodeFrom i [] (encodeToString src) = .ok src := by
  induction src using encodeToString.induct generalizing i with
  | case1 => rfl
  | case2 a =>
    have ha := a.toNat_lt
    rw [encodeToString, decodeFrom_digit (by decide) (by omega),
      decodeFrom_digit (by simp) (by omega)]
    have hfirst := first_byte a (b := 0) (by omega)
    rw [Nat.add_zero] at hfirst
    simp only [List.nil_append, List.cons_append, decodeFrom, value_padChar, isNewline, decodePad,
      decodeEnd, hfirst]
    rfl
  | case3 a b =>
    have ha := a.toNat_lt
    have hb := b.toNat_lt
    rw [encodeToString, decodeFrom_digit (by decide) (by omega),
      decodeFrom_digit (by simp) (by omega), decodeFrom_digit (by simp) (by omega)]
    have hfirst := first_byte a (b := b.toNat / 16) (by omega)
    have hsecond := second_byte a.toNat b (c := 0) (by omega)
    rw [Nat.add_zero] at hsecond
    simp only [List.nil_append, List.cons_append, decodeFrom, value_padChar, isNewline, decodeEnd,
      hfirst, hsecond]
    rfl
  | case4 a b c src ih =>
    have ha := a.toNat_lt
    have hb := b.toNat_lt
    have hc := c.toNat_lt
    rw [encodeToString, decodeFrom_digit (by decide) (by omega),
      decodeFrom_digit (by simp) (by omega), decodeFrom_digit (by simp) (by omega)]
    simp only [List.nil_append, List.cons_append]
    rw [decodeFrom_last_digit (by omega), ih,
      first_byte a (by omega), second_byte a.toNat b (by omega), third_byte]
    rfl

theorem decodeString_encodeToString (src : Bytes) :
    decodeString (encodeToString src) = .ok src :=
  decodeFrom_encodeToString src 0

theorem length_encodeToString (src : Bytes) :
    (encodeToString src).length = (src.length + 2) / 3 * 4 := by
  induction src using encodeToString.induct with
  | case1 => rfl
  | case2 a => simp [encodeToString]
  | case3 a b => simp [encodeToString]
  | case4 a b c src ih =>
    simp only [encodeToString, List.length_cons, ih]
    omega

end Base64
