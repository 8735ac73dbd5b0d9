import OpenPCC.Anonpay.Exact

/-!
# Amounts and their values

The amount of a regular value is the number of five bits with the value as its code
(`Value.amount_eq_decode`), and `exact` finds the code of an amount that has one
(`exact_eq_ok_iff`).
-/

namespace Anonpay

open Go Significand

/-! ## From values to amounts -/

theorem maxAmount_eq_decode : maxAmount = (decode 4 511 : Nat) := by
  decide

theorem decode_le_maxAmount {v : Nat} (h : v < 512) : ((decode 4 v : Nat) : Int) ≤ maxAmount := by
  rw [maxAmount_eq_decode]
  exact_mod_cast (decode_strictMono 4).monotone (by omega)

theorem mantissa_eq (v : Nat) : v &&& 0xF ||| 0x10 = 2 ^ 4 + v % 2 ^ 4 := by
  have hand : v &&& 0xF = v % 2 ^ 4 := Nat.and_two_pow_sub_one_eq_mod v 4
  have hlt : v % 2 ^ 4 < 2 ^ 4 := Nat.mod_lt _ (by decide)
  have hor := Nat.shiftLeft_add_eq_or_of_lt hlt 1
  rw [hand, Nat.or_comm]
  exact hor.symm

/-- Nothing is lost in the word of `Amount`. -/
theorem Value.amount_eq_decode {c : Value} (h : c.shift = false) :
    c.amount = .ok (decode 4 c.value : Nat) := by
  have hle := decode_le_maxAmount c.top
  have hmax : maxAmount ≤ maxInt64 := by decide
  have hdiv : c.value >>> 4 = c.value / 2 ^ 4 := Nat.shiftRight_eq_div_pow _ _
  unfold Value.amount
  rw [h]
  simp only [Bool.false_eq_true, if_false, hdiv, mantissa_eq, Nat.shiftLeft_eq]
  unfold decode at hle ⊢
  by_cases hlt : c.value < 2 ^ 4
  · rw [if_pos (Nat.div_eq_of_lt hlt), if_pos hlt]
  · have hne : c.value / 2 ^ 4 ≠ 0 := by omega
    rw [if_neg hlt] at hle
    rw [if_neg hne, if_neg hlt, int64_eq (Int.natCast_nonneg _) (hle.trans hmax)]

theorem Value.amountOrZero_eq_decode {c : Value} (h : c.shift = false) :
    c.amountOrZero = (decode 4 c.value : Nat) :=
  Value.amountOrZero_eq (Value.amount_eq_decode h)

theorem Value.ext_amount {c c' : Value} (h : c.shift = false) (h' : c'.shift = false)
    (hamount : decode 4 c.value = decode 4 c'.value) : c = c' := by
  have hvalue := (decode_strictMono 4).injective hamount
  cases c
  cases c'
  simp_all

/-! ## From amounts to values -/

theorem encoding_eq {n : Nat} (h : ¬ n < 2 ^ 4) :
    ((len64 n : Int) - 4).toNat <<< 4 ||| n >>> ((len64 n : Int) - 5).toNat &&& 0xF =
      encode 4 n := by
  have hsize : 4 < n.size := Nat.lt_size.2 (by omega)
  have hlt : n / 2 ^ excess 5 n % 2 ^ 4 < 2 ^ 4 := Nat.mod_lt _ (by decide)
  have hand : n / 2 ^ excess 5 n &&& 0xF = n / 2 ^ excess 5 n % 2 ^ 4 :=
    Nat.and_two_pow_sub_one_eq_mod _ 4
  have hexcess : ((n.size : Int) - 5).toNat = excess 5 n := by
    unfold excess
    omega
  have hbiased : ((n.size : Int) - 4).toNat = excess 5 n + 1 := by
    unfold excess
    omega
  rw [len64_eq_size, hexcess, hbiased, Nat.shiftRight_eq_div_pow, hand,
    ← Nat.shiftLeft_add_eq_or_of_lt hlt, Nat.shiftLeft_eq, encode, if_neg h]

theorem encode_lt {n : Nat} (hn : (n : Int) ≤ maxAmount) (h : Fits 5 n) : encode 4 n < 512 := by
  by_contra! hge
  have hmono := (decode_strictMono 4).monotone hge
  have hmax : maxAmount < (decode 4 512 : Nat) := by decide
  rw [decode_encode h] at hmono
  omega

theorem createExactUnsafe_of_fits {n : Nat} (hn : (n : Int) ≤ maxAmount) (h : Fits 5 n) :
    createExactUnsafe n = .ok ⟨false, encode 4 n, encode_lt hn h⟩ := by
  unfold createExactUnsafe
  split
  · next hlt =>
    have hlt' : n < 2 ^ 4 := hlt
    simp only [encode, if_pos hlt']
  · next hge =>
    have hlt64 : n < 2 ^ 64 := by
      unfold maxAmount at hn
      omega
    have hbits := (len64_sub_trailingZeros64_le_iff hlt64).2 h
    have hsize : 4 < n.size := Nat.lt_size.2 (by omega)
    have hlen : len64 n = n.size := len64_eq_size n
    have hsize' : n.size ≤ 35 := Nat.size_le.2 (by unfold maxAmount at hn; omega)
    have h5 : ¬ (len64 n : Int) - trailingZeros64 n > 5 := by omega
    have h4 : ¬ (len64 n : Int) < 4 := by omega
    have h31 : ¬ ((len64 n : Int) - 4).toNat > 31 := by omega
    simp only [if_neg h5, if_neg h4, dif_neg h31, encoding_eq hge]

theorem createExactUnsafe_of_not_fits {n : Nat} (hn : (n : Int) ≤ maxAmount) (h : ¬ Fits 5 n) :
    createExactUnsafe n = .error (.var .noExactRepresentation) := by
  have hge : ¬ n < 16 := fun hlt => h (fits_of_lt (by omega))
  have hlt64 : n < 2 ^ 64 := by
    unfold maxAmount at hn
    omega
  have hbits := mt (len64_sub_trailingZeros64_le_iff hlt64).1 h
  have h5 : (len64 n : Int) - trailingZeros64 n > 5 := not_le.1 hbits
  rw [createExactUnsafe, dif_neg hge]
  simp only [if_pos h5]

theorem createExactUnsafe_eq_ok_iff {n : Nat} (hn : (n : Int) ≤ maxAmount) {v : Value} :
    createExactUnsafe n = .ok v ↔ v.shift = false ∧ decode 4 v.value = n := by
  constructor
  · intro hv
    by_cases h : Fits 5 n
    · rw [createExactUnsafe_of_fits hn h, Except.ok.injEq] at hv
      subst hv
      exact ⟨rfl, decode_encode h⟩
    · rw [createExactUnsafe_of_not_fits hn h] at hv
      cases hv
  · rintro ⟨hshift, rfl⟩
    rw [createExactUnsafe_of_fits hn fits_decode, Except.ok.injEq]
    exact Value.ext_amount rfl hshift (decode_encode fits_decode)

theorem exact_eq_ok_iff {n : Int} {v : Value} :
    exact n = .ok v ↔ v.shift = false ∧ v.amount = .ok n := by
  constructor
  · intro h
    unfold exact at h
    split at h
    · cases h
    · next hneg =>
      simp only at h
      split at h
      · cases h
      · next hmax =>
        obtain ⟨hshift, hv⟩ := (createExactUnsafe_eq_ok_iff (not_lt.1 hmax)).1 h
        refine ⟨hshift, ?_⟩
        rw [Value.amount_eq_decode hshift, hv, Int.toNat_of_nonneg (not_lt.1 hneg)]
  · rintro ⟨hshift, hn⟩
    obtain ⟨h0, hmax⟩ := Value.amount_bounds hn
    rw [Value.amount_eq_decode hshift, Except.ok.injEq] at hn
    subst hn
    have hv : createExactUnsafe (decode 4 v.value) = .ok v :=
      (createExactUnsafe_eq_ok_iff hmax).2 ⟨hshift, rfl⟩
    simp only [exact, Int.toNat_natCast, if_neg (not_lt.2 h0), if_neg (not_lt.2 hmax), hv]

theorem exact_ok_iff_fits {n : Int} :
    (∃ v, exact n = .ok v) ↔ 0 ≤ n ∧ n ≤ maxAmount ∧ Fits 5 n.toNat := by
  constructor
  · rintro ⟨v, hv⟩
    obtain ⟨hshift, hn⟩ := exact_eq_ok_iff.1 hv
    obtain ⟨h0, hmax⟩ := Value.amount_bounds hn
    rw [Value.amount_eq_decode hshift, Except.ok.injEq] at hn
    refine ⟨h0, hmax, ?_⟩
    rw [← hn, Int.toNat_natCast]
    exact fits_decode
  · rintro ⟨h0, hmax, hfits⟩
    have hn : (n.toNat : Int) ≤ maxAmount := by omega
    refine ⟨⟨false, encode 4 n.toNat, encode_lt hn hfits⟩, exact_eq_ok_iff.2 ⟨rfl, ?_⟩⟩
    rw [Value.amount_eq_decode rfl, decode_encode hfits, Int.toNat_of_nonneg h0]

theorem canRepresent_iff {n : Int} : canRepresent n = true ↔ ∃ v, exact n = .ok v := by
  unfold canRepresent
  split
  · next v hv => simp [hv]
  · next e he => simp [he]

/-- `Exact` and `Amount` are inverse to each other. -/
theorem exact_amount_inverse :
    (∀ n : Int, (∃ v, exact n = .ok v) ↔
        0 ≤ n ∧ n ≤ maxAmount ∧ ∃ m k : Nat, m < 32 ∧ n = m * 2 ^ k) ∧
      (∀ n v, exact n = .ok v → v.shift = false ∧ v.value < 512 ∧ v.amount = .ok n) ∧
      (∀ v : Value, v.shift = false →
        ∃ a : Nat, a = decode 4 v.value ∧ v.amount = .ok a ∧ a ≤ maxAmount ∧ exact a = .ok v) ∧
      ∀ v w : Value, v.shift = false → w.shift = false → v.value < w.value →
        v.amountOrZero < w.amountOrZero := by
  refine ⟨fun n => ?_, fun n v h => ?_, fun v h => ?_, fun v w hv hw h => ?_⟩
  · rw [exact_ok_iff_fits]
    refine and_congr_right fun h0 => and_congr_right fun _ => ?_
    refine exists_congr fun m => exists_congr fun k => and_congr_right fun _ => ?_
    rw [← Int.toNat_of_nonneg h0]
    exact_mod_cast Iff.rfl
  · obtain ⟨hshift, hamount⟩ := exact_eq_ok_iff.1 h
    exact ⟨hshift, v.top, hamount⟩
  · have hamount := Value.amount_eq_decode h
    exact ⟨_, rfl, hamount, decode_le_maxAmount v.top, exact_eq_ok_iff.2 ⟨h, hamount⟩⟩
  · rw [Value.amountOrZero_eq_decode hv, Value.amountOrZero_eq_decode hw]
    exact_mod_cast decode_strictMono 4 h

end Anonpay
