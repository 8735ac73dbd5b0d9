import OpenPCC.Anonpay.Proof.Exact
import OpenPCC.Anonpay.Proof.HttpBank

/-!
# Credits on the wire

A credit is sent as a message and read back by the codec of its kind (`AnyCredit.transported`). What
arrives is the same credit, as far as signatures are concerned, exactly if its value is sent as it
is (`survives_iff_sent`), and of the values that the program makes only the special ones of large
amounts are not (`ValueCall.sent_iff`).
-/

namespace Anonpay

open Go Significand

/-! ## The values that the program makes -/

/-- The calls that make a currency value. -/
inductive ValueCall where
  | exact (signedAmount : Int)
  | rounded (signedAmount roundingFactor : Rat)
  | mustSpecial (signedAmount : Int)

def ValueCall.run : ValueCall → Outcome Value
  | .exact signedAmount => .ofExcept (Anonpay.exact signedAmount)
  | .rounded signedAmount roundingFactor =>
    .ofExcept (Anonpay.rounded signedAmount roundingFactor)
  | .mustSpecial signedAmount => Anonpay.mustSpecial signedAmount

/-- A special value is one of an amount below `2 ^ 19`, the smallest with the top bit set. -/
def ValueCall.Sent : ValueCall → Prop
  | .mustSpecial signedAmount => signedAmount < 524288
  | _ => True

theorem createExactUnsafe_shift {amount : Nat} {v : Value}
    (h : createExactUnsafe amount = .ok v) : v.shift = false := by
  unfold createExactUnsafe at h
  split at h
  · cases h
    rfl
  · simp only at h
    split at h
    · cases h
    · split at h
      · cases h
      · split at h
        · cases h
        · cases h
          rfl

theorem chooseBound_shift {signedAmount roundingFactor : Rat} {lowerBound upperBound : Nat}
    {v : Value} (h : chooseBound signedAmount roundingFactor lowerBound upperBound = .ok v) :
    v.shift = false := by
  simp only [chooseBound] at h
  split at h
  · exact createExactUnsafe_shift h
  · exact createExactUnsafe_shift h

/-- Each way through `Rounded` ends in `createExactUnsafe`. -/
theorem rounded_shift {signedAmount roundingFactor : Rat} {v : Value}
    (h : rounded signedAmount roundingFactor = .ok v) : v.shift = false := by
  simp only [rounded] at h
  split at h
  · cases h
  · split at h
    · cases h
    · split at h
      · split at h
        · exact createExactUnsafe_shift h
        · exact chooseBound_shift h
      · split at h
        · cases h
        · split at h
          · exact createExactUnsafe_shift h
          · exact chooseBound_shift h

theorem mustSpecial_eq_ok_iff {signedAmount : Int} {v : Value} :
    mustSpecial signedAmount = .ok v ↔
      v.shift = true ∧ signedAmount = (decode 4 v.value : Nat) := by
  have hexact : exact signedAmount = .ok ⟨false, v.value, v.top⟩ ↔
      signedAmount = (decode 4 v.value : Nat) := by
    rw [exact_eq_ok_iff, Value.amount_eq_decode rfl, Except.ok.injEq]
    exact ⟨fun h => h.2.symm, fun h => ⟨rfl, h.symm⟩⟩
  rw [← hexact, mustSpecial]
  obtain ⟨shift, value, top⟩ := v
  cases h : exact signedAmount with
  | error e => simp
  | ok c =>
    have hc := (exact_eq_ok_iff.1 h).1
    obtain ⟨shift', value', top'⟩ := c
    simp only [Outcome.ok.injEq, Value.mk.injEq, Except.ok.injEq] at hc ⊢
    exact ⟨fun h => ⟨h.1.symm, hc, h.2⟩, fun h => ⟨h.1.symm, h.2.2⟩⟩

/-- The amounts are in the order of their codes, and 256 is the code of `2 ^ 19`. -/
theorem decode_lt_iff (value : Nat) : decode 4 value < 524288 ↔ value < 256 := by
  have h256 : decode 4 256 = 524288 := by decide
  rw [← h256]
  exact (decode_strictMono 4).lt_iff_lt

theorem ValueCall.sent_iff {k : ValueCall} {v : Value} (h : k.run = .ok v) :
    v.Sent ↔ k.Sent := by
  cases k with
  | exact signedAmount =>
    have hshift := (exact_eq_ok_iff.1 (Outcome.ofExcept_eq_ok.1 h)).1
    simp [Value.Sent, ValueCall.Sent, hshift]
  | rounded signedAmount roundingFactor =>
    have hshift := rounded_shift (Outcome.ofExcept_eq_ok.1 h)
    simp [Value.Sent, ValueCall.Sent, hshift]
  | mustSpecial signedAmount =>
    obtain ⟨hshift, rfl⟩ := mustSpecial_eq_ok_iff.1 h
    have hlt : ((decode 4 v.value : Nat) : Int) < 524288 ↔ v.value < 256 := by
      rw [← decode_lt_iff]
      exact_mod_cast Iff.rfl
    simp [Value.Sent, ValueCall.Sent, hshift, hlt]

/-! ## Credits that are sent and read back -/

/-- `UnmarshalProto` of what `MarshalProto` writes, for the kind of the credit. -/
def AnyCredit.transported : AnyCredit → Except Err AnyCredit
  | .blinded c => (BlindedCredit.unmarshalProto (some c.marshalProto)).map .blinded
  | .unblinded c => (UnblindedCredit.unmarshalProto (some c.marshalProto)).map .unblinded

/-- `c'` is `c` for everyone who verifies it. -/
structure SameCredit (c c' : AnyCredit) : Prop where
  value : c'.value = c.value
  timestamp : c'.nonce.timestamp = c.nonce.timestamp
  nonce : c'.nonce.nonce = c.nonce.nonce
  signature : c'.signature = c.signature
  valueBytes : c'.value.blindBytes = c.value.blindBytes
  nonceBytes : c'.nonce.blindBytes = c.nonce.blindBytes
  valid : ∀ i : Issuer, i.verifyCredit c = none → i.verifyCredit c' = none

/-- The credit is read back, and it is the one that was sent. -/
def AnyCredit.Survives (c : AnyCredit) : Prop := ∃ c', c.transported = .ok c' ∧ SameCredit c c'

/-- What is signed is a function of the value, the timestamp and the bytes of the nonce. -/
theorem SameCredit.of_fields {c c' : AnyCredit} (hvalue : c'.value = c.value)
    (htimestamp : c'.nonce.timestamp = c.nonce.timestamp)
    (hnonce : c'.nonce.nonce = c.nonce.nonce) (hsignature : c'.signature = c.signature) :
    SameCredit c c' := by
  have hbytes : c'.nonce.blindBytes = c.nonce.blindBytes := by
    rw [Nonce.blindBytes, Nonce.blindBytes, htimestamp, hnonce]
  refine ⟨hvalue, htimestamp, hnonce, hsignature, by rw [hvalue], hbytes, fun i h => ?_⟩
  rw [Issuer.verifyCredit] at h ⊢
  rw [hvalue, hbytes, hsignature]
  exact h

theorem AnyCredit.transported_eq {c : AnyCredit} (hnonce : c.nonce.nonce.length = nonceLen)
    (hsignature : c.signature ≠ []) :
    ∃ c', c.transported = .ok c' ∧ c'.value = c.value.received ∧
      c'.nonce = c.nonce.received ∧ c'.signature = c.signature := by
  obtain ⟨-, -, hcredit⟩ | ⟨hnot, -⟩ := unmarshalCredit_marshalCredit c.value c.nonce c.signature
  · cases c with
    | blinded c =>
      refine ⟨.blinded ⟨c.value.received, c.nonce.received, c.signature⟩, ?_, rfl, rfl, rfl⟩
      have hc : unmarshalCredit (some c.marshalProto) = .ok _ := hcredit
      rw [AnyCredit.transported, BlindedCredit.unmarshalProto, hc]
      rfl
    | unblinded c =>
      refine ⟨.unblinded ⟨c.value.received, c.nonce.received, c.signature⟩, ?_, rfl, rfl, rfl⟩
      have hc : unmarshalCredit (some c.marshalProto) = .ok _ := hcredit
      rw [AnyCredit.transported, UnblindedCredit.unmarshalProto, hc]
      rfl
  · exact absurd ⟨hnonce, hsignature⟩ hnot

theorem AnyCredit.survives_iff_sent {c : AnyCredit} (hnonce : c.nonce.nonce.length = nonceLen)
    (hsignature : c.signature ≠ []) : c.Survives ↔ c.value.Sent := by
  obtain ⟨c', hc', hvalue, hnonce', hsig⟩ := AnyCredit.transported_eq hnonce hsignature
  rw [← Value.received_eq_iff, ← hvalue]
  constructor
  · rintro ⟨d, hd, hsame⟩
    rw [hc', Except.ok.injEq] at hd
    subst hd
    exact hsame.value
  · intro h
    exact ⟨c', hc', .of_fields h (by rw [hnonce']; rfl) (by rw [hnonce']; rfl) hsig⟩

/-- Credits of both kinds survive the wire, unless their value is a special one of a large
amount. -/
theorem credits_survive_iff {k : ValueCall} {v : Value} (hv : k.run = .ok v)
    (nonce : Nonce) (hnonce : nonce.nonce.length = nonceLen) (signature : Bytes)
    (hsignature : signature ≠ []) :
    ((AnyCredit.blinded ⟨v, nonce, signature⟩).Survives ∧
        (AnyCredit.unblinded ⟨v, nonce, signature⟩).Survives) ↔ k.Sent := by
  have hb : (AnyCredit.blinded ⟨v, nonce, signature⟩).Survives ↔ v.Sent :=
    AnyCredit.survives_iff_sent hnonce hsignature
  have hu : (AnyCredit.unblinded ⟨v, nonce, signature⟩).Survives ↔ v.Sent :=
    AnyCredit.survives_iff_sent hnonce hsignature
  rw [hb, hu, and_self]
  exact ValueCall.sent_iff hv

/-- The special value of 16, in a credit with a timestamp before 1970. -/
theorem credits_survive_special_16 :
    (AnyCredit.blinded ⟨⟨true, 16, by decide⟩, ⟨-3600, List.replicate 16 7, true⟩, [1]⟩).Survives ∧
      (AnyCredit.unblinded
        ⟨⟨true, 16, by decide⟩, ⟨-3600, List.replicate 16 7, true⟩, [1]⟩).Survives :=
  (credits_survive_iff (k := .mustSpecial 16) (by decide) ⟨-3600, List.replicate 16 7, true⟩
    (by decide) [1] (by decide)).2 (by unfold ValueCall.Sent; decide)

/-- A credit of the special value of `2 ^ 19` arrives as one of the regular value. -/
theorem special_credit_lost :
    mustSpecial 524288 = .ok ⟨true, 256, by decide⟩ ∧
      (AnyCredit.blinded ⟨⟨true, 256, by decide⟩, ⟨0, List.replicate 16 0, false⟩, [1]⟩).transported
        = .ok (.blinded ⟨⟨false, 256, by decide⟩, ⟨0, List.replicate 16 0, false⟩, [1]⟩) ∧
      ¬(AnyCredit.blinded
        ⟨⟨true, 256, by decide⟩, ⟨0, List.replicate 16 0, false⟩, [1]⟩).Survives := by
  refine ⟨by decide, by decide, ?_⟩
  rw [AnyCredit.survives_iff_sent (by decide) (by decide)]
  simp [AnyCredit.value, Value.Sent]

end Anonpay
