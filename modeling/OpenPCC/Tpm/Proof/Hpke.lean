import Mathlib.Data.List.Nodup
import Mathlib.Data.List.Range
import OpenPCC.Tpm.Hpke

/-!
# The sequence number counts the opened messages

* `value_incrementLoop`: the loop over the bytes adds one, with the carry as the highest digit.
* `OpenContext.At`: the sequence number is the encoding of a number of the width of the base nonce.
* `OpenContext.At.open_eq`: a call of `Open` asks the cipher with the nonce of the number. It leaves
  the number, or returns the plaintext and adds one; at the greatest number it returns none.
* `OpenContext.At.run`: a sequence of calls opens messages with consecutive numbers.
-/

namespace Hpke

open Go

/-! ## Increments -/

theorem and_eq_ones_iff (x y : UInt8) : x &&& y = 0xFF ↔ x = 0xFF ∧ y = 0xFF := by
  constructor
  · intro h
    have hnat := congrArg UInt8.toNat h
    have hones : (0xFF : UInt8).toNat = 255 := rfl
    have hx := x.toNat_lt
    have hy := y.toNat_lt
    have hlex : x.toNat &&& y.toNat ≤ x.toNat := Nat.and_le_left
    have hley : x.toNat &&& y.toNat ≤ y.toNat := Nat.and_le_right
    rw [UInt8.toNat_and, hones] at hnat
    constructor
    · exact UInt8.toNat_inj.1 (by omega)
    · exact UInt8.toNat_inj.1 (by omega)
  · rintro ⟨rfl, rfl⟩
    rfl

theorem allOnes_eq_iff (b : Bytes) : allOnes b = 0xFF ↔ b = List.replicate b.length 0xFF := by
  have hfold : ∀ acc : UInt8, b.foldl (· &&& ·) acc = 0xFF ↔ acc = 0xFF ∧ ∀ x ∈ b, x = 0xFF := by
    induction b with
    | nil => simp
    | cons x b ih =>
      intro acc
      rw [List.foldl_cons, ih, and_eq_ones_iff, List.forall_mem_cons, and_assoc]
  rw [allOnes, hfold, List.eq_replicate_iff]
  simp

/-- The carry is the digit above the bytes. -/
theorem value_incrementLoop (b : Bytes) :
    BigEndian.value (incrementLoop b).2 + (incrementLoop b).1 * 256 ^ b.length =
      BigEndian.value b + 1 := by
  induction b with
  | nil => rfl
  | cons x b ih =>
    obtain ⟨sum, hsum⟩ : ∃ sum, sum = x.toNat + (incrementLoop b).1 := ⟨_, rfl⟩
    have hloop : incrementLoop (x :: b) =
        (sum >>> 8, UInt8.ofNat (sum &&& 0xFF) :: (incrementLoop b).2) := by
      rw [hsum]
      rfl
    have hlow : (UInt8.ofNat (sum &&& 0xFF)).toNat = sum % 256 := by
      rw [show 0xFF = 2 ^ 8 - 1 from rfl, Nat.and_two_pow_sub_one_eq_mod, UInt8.toNat_ofNat',
        Nat.mod_mod]
    have hhigh : sum >>> 8 = sum / 256 := Nat.shiftRight_eq_div_pow sum 8
    rw [hloop, BigEndian.value, BigEndian.value, hlow, hhigh, length_incrementLoop,
      List.length_cons]
    calc sum % 256 * 256 ^ b.length + BigEndian.value (incrementLoop b).2 +
          sum / 256 * 256 ^ (b.length + 1)
        = (256 * (sum / 256) + sum % 256) * 256 ^ b.length +
            BigEndian.value (incrementLoop b).2 := by ring
      _ = (x.toNat + (incrementLoop b).1) * 256 ^ b.length +
            BigEndian.value (incrementLoop b).2 := by rw [Nat.div_add_mod, hsum]
      _ = x.toNat * 256 ^ b.length + (BigEndian.value (incrementLoop b).2 +
            (incrementLoop b).1 * 256 ^ b.length) := by ring
      _ = x.toNat * 256 ^ b.length + BigEndian.value b + 1 := by rw [ih, Nat.add_assoc]

theorem incrementLoop_of_lt {b : Bytes} (h : BigEndian.value b + 1 < 256 ^ b.length) :
    incrementLoop b = (0, BigEndian.encode b.length (BigEndian.value b + 1)) := by
  have hvalue := value_incrementLoop b
  have hcarry : (incrementLoop b).1 = 0 := by
    by_contra hne
    have hle : 1 * 256 ^ b.length ≤ (incrementLoop b).1 * 256 ^ b.length :=
      Nat.mul_le_mul_right _ (Nat.one_le_iff_ne_zero.2 hne)
    omega
  refine Prod.ext hcarry ?_
  rw [hcarry, Nat.zero_mul, Nat.add_zero] at hvalue
  rw [← hvalue, ← length_incrementLoop b, BigEndian.encode_value]

theorem successes_cons_of_ok {o : Opened} (h : o.result.isOk = true) (opened : List Opened) :
    successes (o :: opened) = o :: successes opened :=
  List.filter_cons_of_pos h

theorem successes_cons_of_error {o : Opened} (h : o.result.isOk = false) (opened : List Opened) :
    successes (o :: opened) = successes opened :=
  List.filter_cons_of_neg (ne_true_of_eq_false h)

namespace OpenContext

variable {c : OpenContext} {s : Nat}

/-- The sequence number is `s`. -/
structure At (c : OpenContext) (s : Nat) : Prop where
  eq : c.sequenceNumber = BigEndian.encode c.baseNonce.length s
  lt : s < 256 ^ c.baseNonce.length

theorem At.value (h : c.At s) : BigEndian.value c.sequenceNumber = s := by
  rw [h.eq, BigEndian.value_encode, Nat.mod_eq_of_lt h.lt]

theorem Unused.at_zero (h : c.Unused) : c.At 0 where
  eq := h.trans (BigEndian.encode_zero _).symm
  lt := Nat.pow_pos (by decide)

theorem At.allOnes_iff (h : c.At s) :
    allOnes c.sequenceNumber = 0xFF ↔ s + 1 = 256 ^ c.baseNonce.length := by
  have hones := BigEndian.value_replicate c.baseNonce.length
  rw [allOnes_eq_iff, c.length_sequenceNumber]
  constructor
  · intro heq
    rw [← hones, ← heq, h.value]
  · intro heq
    refine BigEndian.value_inj (c.length_sequenceNumber.trans List.length_replicate.symm) ?_
    rw [h.value]
    exact Nat.succ.inj (heq.trans hones.symm)

theorem At.increment_of_eq (h : c.At s) (hs : s + 1 = 256 ^ c.baseNonce.length) :
    c.increment = (some errAEADSeqOverflows, c) := by
  rw [increment, if_pos (h.allOnes_iff.2 hs)]

theorem At.increment_of_lt (h : c.At s) (hs : s + 1 < 256 ^ c.baseNonce.length) :
    c.increment = (none, c.incremented) ∧ c.incremented.At (s + 1) := by
  have hloop : incrementLoop c.sequenceNumber =
      (0, BigEndian.encode c.baseNonce.length (s + 1)) := by
    rw [incrementLoop_of_lt (by rwa [h.value, c.length_sequenceNumber]), h.value,
      c.length_sequenceNumber]
  have hnot : ¬ allOnes c.sequenceNumber = 0xFF := fun hones => by
    have hmax := h.allOnes_iff.1 hones
    omega
  refine ⟨?_, ⟨congrArg Prod.snd hloop, hs⟩⟩
  rw [increment, if_neg hnot, hloop]
  rfl

/-! ## Calls of `Open` -/

/-- The nonce of the message with number `s`. -/
def nonceOf (baseNonce : Bytes) (s : Nat) : Bytes :=
  xorBytes baseNonce (BigEndian.encode baseNonce.length s)

/-- What `Open` does with the answer of the cipher: the result and the next number. -/
def answerOf (limit s : Nat) : Except Err Bytes → Except Err Bytes × Nat
  | .error err => (.error err, s)
  | .ok pt => if s + 1 = limit then (.error errAEADSeqOverflows, s) else (.ok pt, s + 1)

theorem answerOf_cases (limit s : Nat) (answer : Except Err Bytes) :
    ((answerOf limit s answer).1.isOk = false ∧ (answerOf limit s answer).2 = s) ∨
      ((answerOf limit s answer).1 = answer ∧ answer.isOk = true ∧
        (answerOf limit s answer).2 = s + 1) := by
  cases answer with
  | error err => exact .inl ⟨rfl, rfl⟩
  | ok pt =>
    rw [answerOf]
    split
    · exact .inl ⟨rfl, rfl⟩
    · exact .inr ⟨rfl, rfl, rfl⟩

theorem At.open_eq (h : c.At s) (ct aad : Bytes) :
    (c.open_ ct aad).1 = (answerOf (256 ^ c.baseNonce.length) s
        (c.aead.open_ (nonceOf c.baseNonce s) ct aad)).1 ∧
      (c.open_ ct aad).2.At (answerOf (256 ^ c.baseNonce.length) s
        (c.aead.open_ (nonceOf c.baseNonce s) ct aad)).2 ∧
      (c.open_ ct aad).2.baseNonce = c.baseNonce ∧ (c.open_ ct aad).2.aead = c.aead ∧
      (c.open_ ct aad).2.nonce = nonceOf c.baseNonce s := by
  have hat : c.calcNonce.At s := ⟨h.eq, h.lt⟩
  have hnonce : c.calcNonce.nonce = nonceOf c.baseNonce s := by
    rw [nonceOf, ← h.eq]
    rfl
  unfold open_
  dsimp only
  rw [hnonce, show c.calcNonce.aead = c.aead from rfl]
  cases c.aead.open_ (nonceOf c.baseNonce s) ct aad with
  | error err => exact ⟨rfl, hat, rfl, rfl, hnonce⟩
  | ok pt =>
    rw [answerOf]
    obtain hmax | hlt := Nat.eq_or_lt_of_le (Nat.succ_le_of_lt h.lt)
    · rw [hat.increment_of_eq hmax, if_pos hmax]
      exact ⟨rfl, hat, rfl, rfl, hnonce⟩
    · obtain ⟨hincrement, hnext⟩ := hat.increment_of_lt hlt
      rw [hincrement, if_neg hlt.ne]
      exact ⟨rfl, hnext, rfl, rfl, hnonce⟩

/-- What a sequence of calls does, if the first has number `s`: the messages that are opened have
consecutive numbers, and each is what the cipher returns for the nonce of its number. -/
structure Counts (aead : Aead) (baseNonce : Bytes) (s : Nat) (r : List Opened × OpenContext) :
    Prop where
  baseNonce_eq : r.2.baseNonce = baseNonce
  aead_eq : r.2.aead = aead
  at_ : r.2.At (s + (successes r.1).length)
  nonces : (successes r.1).map (·.nonce) =
    (List.range' s (successes r.1).length).map (nonceOf baseNonce)
  opened : ∀ o ∈ successes r.1, o.result = aead.open_ o.nonce o.ct o.aad

section
variable {aead : Aead} {baseNonce : Bytes} {r : List Opened × OpenContext} {o : Opened}

theorem Counts.cons_error (h : Counts aead baseNonce s r) (ho : o.result.isOk = false) :
    Counts aead baseNonce s (o :: r.1, r.2) := by
  obtain ⟨hbase, haead, hat, hnonces, hopened⟩ := h
  rw [← successes_cons_of_error ho] at hat hnonces hopened
  exact ⟨hbase, haead, hat, hnonces, hopened⟩

theorem Counts.cons_ok (h : Counts aead baseNonce (s + 1) r) (ho : o.result.isOk = true)
    (hnonce : o.nonce = nonceOf baseNonce s) (hresult : o.result = aead.open_ o.nonce o.ct o.aad) :
    Counts aead baseNonce s (o :: r.1, r.2) := by
  have hcons := successes_cons_of_ok ho r.1
  refine ⟨h.baseNonce_eq, h.aead_eq, ?_, ?_, ?_⟩
  · rw [hcons, List.length_cons, Nat.add_comm _ 1, ← Nat.add_assoc]
    exact h.at_
  · rw [hcons, List.map_cons, List.length_cons, List.range'_succ, List.map_cons, ← h.nonces, hnonce]
  · rw [hcons]
    exact List.forall_mem_cons.2 ⟨hresult, h.opened⟩

end

theorem At.run (h : c.At s) (calls : List (Bytes × Bytes)) :
    Counts c.aead c.baseNonce s (c.run calls) := by
  induction calls generalizing c s with
  | nil => exact ⟨rfl, rfl, h, rfl, fun o ho => by cases ho⟩
  | cons call calls ih =>
    obtain ⟨ct, aad⟩ := call
    obtain ⟨hresult, hat, hbase, haead, hnonce⟩ := h.open_eq ct aad
    have hrest := ih hat
    rw [hbase, haead] at hrest
    rcases answerOf_cases (256 ^ c.baseNonce.length) s
      (c.aead.open_ (nonceOf c.baseNonce s) ct aad) with ⟨hfail, hs⟩ | ⟨hok, hisOk, hs⟩
    · rw [hs] at hrest
      exact hrest.cons_error (hresult ▸ hfail)
    · rw [hs] at hrest
      rw [hok] at hresult
      exact hrest.cons_ok (hresult ▸ hisOk) hnonce (hnonce ▸ hresult)

theorem At.run_of_eq (h : c.At s) (hs : s + 1 = 256 ^ c.baseNonce.length)
    (calls : List (Bytes × Bytes)) :
    successes (c.run calls).1 = [] ∧ (c.run calls).2.sequenceNumber = c.sequenceNumber := by
  have hcounts := h.run calls
  have hlt := hcounts.at_.lt
  rw [hcounts.baseNonce_eq] at hlt
  have hzero : (successes (c.run calls).1).length = 0 := by omega
  refine ⟨List.length_eq_zero_iff.1 hzero, ?_⟩
  rw [hcounts.at_.eq, hcounts.baseNonce_eq, hzero, Nat.add_zero, h.eq]

theorem nodup_nonces {baseNonce : Bytes} {k : Nat} (hk : k ≤ 256 ^ baseNonce.length) :
    ((List.range' 0 k).map (nonceOf baseNonce)).Nodup := by
  refine List.Nodup.map_on ?_ List.nodup_range'
  intro i hi j hj heq
  rw [List.mem_range'_1] at hi hj
  have hencode := xorBytes_right_inj (BigEndian.length_encode _ i) (BigEndian.length_encode _ j) heq
  exact BigEndian.encode_inj (by omega) (by omega) hencode

/-- After `s` messages were opened, the sequence number is the encoding of `s`. The next call asks
the cipher with the base nonce masked with it. If the cipher returns a plaintext and `s` is not the
greatest number, the call returns it and adds one; otherwise it fails and leaves the sequence
number. Every message that was opened is what the cipher returned for the nonce of the call, no
nonce opens two messages, and at the greatest number nothing more is opened. -/
theorem sequenceNumber_counts {c : OpenContext} (hc : c.Unused) (calls : List (Bytes × Bytes)) :
    let n := c.baseNonce.length
    let r := c.run calls
    let s := (successes r.1).length
    (r.2.sequenceNumber = BigEndian.encode n s ∧ s < 256 ^ n) ∧
      (∀ ct aad, match c.aead.open_ (xorBytes c.baseNonce (BigEndian.encode n s)) ct aad with
        | .error err => (r.2.open_ ct aad).1 = .error err ∧
          (r.2.open_ ct aad).2.sequenceNumber = r.2.sequenceNumber
        | .ok pt =>
          if s + 1 = 256 ^ n then (r.2.open_ ct aad).1 = .error errAEADSeqOverflows ∧
            (r.2.open_ ct aad).2.sequenceNumber = r.2.sequenceNumber
          else (r.2.open_ ct aad).1 = .ok pt ∧
            (r.2.open_ ct aad).2.sequenceNumber = BigEndian.encode n (s + 1)) ∧
      (∀ o ∈ successes r.1, o.result = c.aead.open_ o.nonce o.ct o.aad) ∧
      ((successes r.1).map (·.nonce)).Nodup ∧
      (r.2.sequenceNumber = List.replicate n 0xFF →
        ∀ more, successes (r.2.run more).1 = [] ∧
          (r.2.run more).2.sequenceNumber = List.replicate n 0xFF) := by
  intro n r s
  have hcounts : Counts c.aead c.baseNonce 0 r := hc.at_zero.run calls
  have hat : r.2.At s := by
    rw [← Nat.zero_add s]
    exact hcounts.at_
  have heq := hat.eq
  have hlt := hat.lt
  rw [hcounts.baseNonce_eq] at heq hlt
  refine ⟨⟨heq, hlt⟩, fun ct aad => ?_, hcounts.opened, ?_, fun hones more => ?_⟩
  · obtain ⟨hresult, hnext, hbase, -, -⟩ := hat.open_eq ct aad
    have hnumber := hnext.eq
    rw [hbase, hcounts.baseNonce_eq, hcounts.aead_eq] at hnumber
    rw [hcounts.baseNonce_eq, hcounts.aead_eq] at hresult
    rw [hresult, hnumber, heq, nonceOf]
    cases c.aead.open_ (xorBytes c.baseNonce (BigEndian.encode n s)) ct aad with
    | error err => exact ⟨rfl, rfl⟩
    | ok pt =>
      dsimp only [answerOf]
      split <;> exact ⟨rfl, rfl⟩
  · rw [hcounts.nonces]
    exact nodup_nonces hlt.le
  · have hmax : s + 1 = 256 ^ r.2.baseNonce.length := by
      rw [hcounts.baseNonce_eq, ← BigEndian.value_replicate, ← hat.value, hones]
    obtain ⟨hnone, hkept⟩ := hat.run_of_eq hmax more
    exact ⟨hnone, hkept.trans hones⟩

end OpenContext

/-- The key schedule gives a context for which no message was opened, with a base nonce of the size
of the cipher's nonces. -/
theorem unused_keySchedule {kdf : Kdf} {keySize : Nat} {newAead : Bytes → Except Err Aead}
    {ss info : Bytes} {c : OpenContext} (h : keySchedule kdf keySize newAead ss info = .ok c) :
    c.baseNonce.length = c.aead.nonceSize % 2 ^ 16 ∧ c.Unused := by
  unfold keySchedule at h
  dsimp only at h
  split at h
  · cases h
  · cases h
    exact ⟨kdf.length_expand _ _ _, rfl⟩

/-- A cipher with nonces of one byte that opens a message only with the nonce that it names. -/
def namedAead : Aead where
  nonceSize := 1
  open_ nonce ct _ :=
    if ct = nonce then .ok [42] else .error (.new "message authentication failed" [])

/-- A key derivation that returns fives. -/
def fives : Kdf where
  extractSize := 32
  extract _ _ := []
  expand _ _ l := List.replicate l 5
  length_expand _ _ _ := List.length_replicate

/-- The base nonce of the context is 5, so the messages are opened in the order 5, 4, 7. -/
theorem sequenceNumber_counts_fives :
    ∃ c, keySchedule fives 16 (fun _ => .ok namedAead) [] [] = .ok c ∧
      (successes (c.run [([5], []), ([5], []), ([4], []), ([7], [])]).1).length = 3 ∧
      (c.run [([5], []), ([5], []), ([4], []), ([7], [])]).2.sequenceNumber = [3] := by
  obtain ⟨c, hc⟩ : ∃ c, keySchedule fives 16 (fun _ => .ok namedAead) [] [] = .ok c := ⟨_, rfl⟩
  have hlen : (successes (c.run [([5], []), ([5], []), ([4], []), ([7], [])]).1).length = 3 := by
    cases hc
    decide
  refine ⟨c, hc, hlen, ?_⟩
  have hcounts := OpenContext.sequenceNumber_counts (unused_keySchedule hc).2
    [([5], []), ([5], []), ([4], []), ([7], [])]
  rw [hcounts.1.1, hlen]
  cases hc
  rfl

end Hpke
