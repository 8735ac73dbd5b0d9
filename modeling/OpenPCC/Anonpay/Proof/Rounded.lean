import Mathlib.Algebra.BigOperators.Ring.Finset
import Mathlib.Order.Bounds.Defs
import OpenPCC.Anonpay.Proof.Exact

/-!
# Stochastic rounding

An amount without a value is rounded to the numbers of five bits below and above it
(`rounded_of_not_fits`). All operations of `Rounded` are exact then: the distance of the two is a
power of two, so the probability of the lower one is a fraction of the drawn factors, and the upper
one is chosen once too rarely among them (`meanRounded_eq`).
-/

namespace Anonpay

open Go Significand

/-! ## The choice -/

theorem fits_of_le_32 {n : Nat} (h : n ≤ 32) : Fits 5 n := by
  rcases Nat.lt_or_eq_of_le h with hlt | rfl
  · exact fits_of_lt hlt
  · exact ⟨1, 5, by decide, by decide⟩

theorem excess_le {n : Nat} (hn : (n : Int) ≤ maxAmount) : excess 5 n ≤ 30 := by
  have hsize : n.size ≤ 35 := Nat.size_le.2 (by unfold maxAmount at hn; omega)
  unfold excess
  omega

theorem up_le_maxAmount {n : Nat} (hn : (n : Int) ≤ maxAmount) (h : ¬ Fits 5 n) :
    ((up 5 n : Nat) : Int) ≤ maxAmount := by
  have hmax : maxAmount = ((decode 4 511 : Nat) : Int) := maxAmount_eq_decode
  have hne : n ≠ decode 4 511 := by
    rintro rfl
    exact h fits_decode
  have hle : up 5 n ≤ decode 4 511 := up_le (by decide) fits_decode (by omega)
  omega

/-- The share of the factors for which the lower bound is taken. -/
def lowerShare (n : Nat) : Rat := ((up 5 n - n : Nat) : Int) / 2 ^ excess 5 n

theorem chooseBound_eq {n : Nat} (hn : (n : Int) ≤ maxAmount) (h : ¬ Fits 5 n) (r : Rat) :
    chooseBound n r (down 5 n) (up 5 n) =
      if r > lowerShare n then createExactUnsafe (up 5 n) else createExactUnsafe (down 5 n) := by
  have hup := up_le_maxAmount hn h
  have hlt : n < up 5 n := lt_up
  have hdown : down 5 n ≤ n := down_le
  unfold maxAmount at hup
  have hfloat : ∀ k : Nat, k ≤ up 5 n → float64 (k : Rat) = k := by
    intro k hk
    exact float64_intCast (k := k) (by rw [abs_of_nonneg (Int.natCast_nonneg k)]; omega)
  have hsub : ∀ k : Nat, k ≤ up 5 n →
      float64 ((up 5 n : Nat) - (k : Rat)) = ((up 5 n - k : Nat) : Rat) := by
    intro k hk
    rw [← Nat.cast_sub hk]
    exact hfloat _ (Nat.sub_le _ _)
  have hwidth : up 5 n - down 5 n = 2 ^ excess 5 n := by
    rw [up_eq_down_add, Nat.add_sub_cancel_left]
  have hprob := float64_div_pow (k := (up 5 n - n : Nat))
    (by rw [abs_of_nonneg (Int.natCast_nonneg _)]; omega) (excess 5 n)
  simp only [chooseBound, hfloat _ le_rfl, hfloat _ (hdown.trans hlt.le), hsub _ hlt.le,
    hsub _ (hdown.trans hlt.le), hwidth]
  rw [lowerShare, Nat.cast_pow, Nat.cast_ofNat]
  rw [Int.cast_natCast] at hprob ⊢
  rw [hprob]

theorem rounded_of_fits {n : Nat} (hn : (n : Int) ≤ maxAmount) (h : Fits 5 n) (r : Rat) :
    rounded n r = createExactUnsafe n := by
  have hneg : ¬ (n : Rat) < 0 := not_lt.2 (Nat.cast_nonneg n)
  rw [rounded, if_neg hneg]
  simp only [Int.floor_natCast, Int.ceil_natCast, Int.toNat_natCast, if_neg (not_lt.2 hn)]
  by_cases h32 : n ≤ 32
  · rw [if_pos h32, if_pos trivial]
  · have hsize : 5 < n.size := Nat.lt_size.2 (by omega)
    have h5 : ¬ len64 n < 5 := by
      rw [len64_eq_size]
      omega
    have hdown := (down_eq_iff_fits (by decide)).2 h
    have htrunc : n >>> (len64 n - 5) <<< (len64 n - 5) = n := by
      rw [len64_eq_size, Nat.shiftRight_eq_div_pow, Nat.shiftLeft_eq]
      exact hdown
    rw [if_neg h32, if_neg h5, htrunc, if_pos ⟨trivial, rfl⟩]

theorem rounded_of_not_fits {n : Nat} (hn : (n : Int) ≤ maxAmount) (h : ¬ Fits 5 n) (r : Rat) :
    rounded n r =
      if r > lowerShare n then createExactUnsafe (up 5 n) else createExactUnsafe (down 5 n) := by
  have hneg : ¬ (n : Rat) < 0 := not_lt.2 (Nat.cast_nonneg n)
  have h32 : ¬ n ≤ 32 := fun hle => h (fits_of_le_32 hle)
  have hsize : 5 < n.size := Nat.lt_size.2 (by omega)
  have h5 : ¬ len64 n < 5 := by
    rw [len64_eq_size]
    omega
  have hdown : n >>> (len64 n - 5) <<< (len64 n - 5) = down 5 n := by
    rw [len64_eq_size, Nat.shiftRight_eq_div_pow, Nat.shiftLeft_eq]
    rfl
  have hup : (n >>> (len64 n - 5) + 1) <<< (len64 n - 5) = up 5 n := by
    rw [len64_eq_size, Nat.shiftRight_eq_div_pow, Nat.shiftLeft_eq]
    rfl
  have hne : down 5 n ≠ n := mt (down_eq_iff_fits (by decide)).1 h
  rw [rounded, if_neg hneg]
  simp only [Int.floor_natCast, Int.ceil_natCast, Int.toNat_natCast, if_neg (not_lt.2 hn),
    if_neg h32, if_neg h5, hdown, hup, if_neg (fun hand : True ∧ _ => hne hand.2)]
  exact chooseBound_eq hn h r

/-! ## The amount that is chosen -/

/-- A factor is one of the `2 ^ 53` that `RandFloat64` draws, or 1. -/
def Factor (r : Rat) : Prop := r = 1 ∨ ∃ m : Nat, m < 2 ^ 53 ∧ r = m / 2 ^ 53

/-- The amount of `Rounded(a, r)`. -/
def roundedAmount (a : Int) (r : Rat) : Int :=
  match rounded a r with
  | .ok v => v.amountOrZero
  | .error _ => 0

/-- The mean of `Rounded(a, r)` over the factors that are drawn. -/
def meanRounded (a : Int) : Rat :=
  (∑ m ∈ Finset.range (2 ^ 53), (roundedAmount a (m / 2 ^ 53) : Rat)) / 2 ^ 53

theorem createExactUnsafe_amount {n : Nat} (hn : (n : Int) ≤ maxAmount) (h : Fits 5 n) :
    ∃ v, createExactUnsafe n = .ok v ∧ v.amountOrZero = n := by
  refine ⟨_, createExactUnsafe_of_fits hn h, ?_⟩
  rw [Value.amountOrZero_eq_decode rfl, decode_encode h]

theorem rounded_amount_of_fits {n : Nat} (hn : (n : Int) ≤ maxAmount) (h : Fits 5 n) (r : Rat) :
    ∃ v, rounded n r = .ok v ∧ v.amountOrZero = n := by
  rw [rounded_of_fits hn h]
  exact createExactUnsafe_amount hn h

theorem rounded_amount_of_not_fits {n : Nat} (hn : (n : Int) ≤ maxAmount) (h : ¬ Fits 5 n)
    (r : Rat) :
    ∃ v, rounded n r = .ok v ∧
      v.amountOrZero = if r > lowerShare n then (up 5 n : Int) else (down 5 n : Int) := by
  rw [rounded_of_not_fits hn h]
  have hdown : ((down 5 n : Nat) : Int) ≤ maxAmount := by
    have := down_le (p := 5) (n := n)
    omega
  split
  · exact createExactUnsafe_amount (up_le_maxAmount hn h) (fits_up (by decide))
  · exact createExactUnsafe_amount hdown fits_down

theorem roundedAmount_of_fits {n : Nat} (hn : (n : Int) ≤ maxAmount) (h : Fits 5 n) (r : Rat) :
    roundedAmount n r = n := by
  obtain ⟨v, hv, hamount⟩ := rounded_amount_of_fits hn h r
  rw [roundedAmount, Int.cast_natCast, hv]
  exact hamount

theorem roundedAmount_of_not_fits {n : Nat} (hn : (n : Int) ≤ maxAmount) (h : ¬ Fits 5 n)
    (r : Rat) :
    roundedAmount n r = if r > lowerShare n then (up 5 n : Int) else (down 5 n : Int) := by
  obtain ⟨v, hv, hamount⟩ := rounded_amount_of_not_fits hn h r
  rw [roundedAmount, Int.cast_natCast, hv]
  exact hamount

theorem rounded_returns {n : Nat} (hn : (n : Int) ≤ maxAmount) (r : Rat) :
    ∃ v, rounded n r = .ok v := by
  by_cases h : Fits 5 n
  · obtain ⟨v, hv, -⟩ := rounded_amount_of_fits hn h r
    exact ⟨v, hv⟩
  · obtain ⟨v, hv, -⟩ := rounded_amount_of_not_fits hn h r
    exact ⟨v, hv⟩

theorem roundedAmount_mono {n : Nat} (hn : (n : Int) ≤ maxAmount) {r r' : Rat} (hr : r ≤ r') :
    roundedAmount n r ≤ roundedAmount n r' := by
  by_cases h : Fits 5 n
  · rw [roundedAmount_of_fits hn h, roundedAmount_of_fits hn h]
  · have hle : (down 5 n : Int) ≤ (up 5 n : Int) := by
      exact_mod_cast down_le.trans lt_up.le
    rw [roundedAmount_of_not_fits hn h, roundedAmount_of_not_fits hn h]
    by_cases hlow : r > lowerShare n
    · rw [if_pos hlow, if_pos (lt_of_lt_of_le hlow hr)]
    · rw [if_neg hlow]
      split
      · exact hle
      · exact le_rfl

/-! ## The mean -/

theorem factor_gt_lowerShare_iff {n : Nat} (hn : (n : Int) ≤ maxAmount) {m : Nat} :
    (m : Rat) / 2 ^ 53 > lowerShare n ↔ (up 5 n - n) * 2 ^ (53 - excess 5 n) < m := by
  have hpow : (2 : Rat) ^ 53 = 2 ^ excess 5 n * 2 ^ (53 - excess 5 n) := by
    have he := excess_le hn
    rw [← pow_add]
    congr 1
    omega
  have h1 : (0 : Rat) < 2 ^ excess 5 n := by positivity
  have h2 : (0 : Rat) < 2 ^ (53 - excess 5 n) := by positivity
  rw [lowerShare, gt_iff_lt, Int.cast_natCast, lt_div_iff₀ (by positivity), hpow,
    div_mul_eq_mul_div, div_lt_iff₀ h1, mul_comm ((2 : Rat) ^ excess 5 n), ← mul_assoc,
    mul_lt_mul_iff_left₀ h1]
  exact_mod_cast Iff.rfl

theorem sum_range_ite_lt {N c : Nat} (hc : c < N) (a b : Rat) :
    ∑ m ∈ Finset.range N, (if c < m then b else a) = N * b - (c + 1) * (b - a) := by
  induction N, hc using Nat.le_induction with
  | base =>
    have hfirst : ∀ m ∈ Finset.range (c + 1), (if c < m then b else a) = a := by
      intro m hm
      rw [if_neg (by rw [Finset.mem_range] at hm; omega)]
    rw [Finset.sum_congr rfl hfirst, Finset.sum_const, Finset.card_range, nsmul_eq_mul]
    rw [Nat.cast_add, Nat.cast_one]
    ring
  | succ N hN ih =>
    rw [Finset.sum_range_succ, ih, if_pos (by omega), Nat.cast_add, Nat.cast_one]
    ring

/-- The mean is one factor too low. -/
theorem meanRounded_eq {n : Nat} (hn : (n : Int) ≤ maxAmount) (h : ¬ Fits 5 n) :
    meanRounded n = n - ((up 5 n : Rat) - down 5 n) / 2 ^ 53 := by
  have he := excess_le hn
  have hlt : n < up 5 n := lt_up
  have hne : down 5 n ≠ n := mt (down_eq_iff_fits (by decide)).1 h
  have hdown : down 5 n ≤ n := down_le
  have hwidth : up 5 n = down 5 n + 2 ^ excess 5 n := up_eq_down_add
  have hpow : 2 ^ excess 5 n * 2 ^ (53 - excess 5 n) = 2 ^ 53 := by
    rw [← pow_add]
    congr 1
    omega
  -- the number of the share
  have hc : (up 5 n - n) * 2 ^ (53 - excess 5 n) < 2 ^ 53 := by
    rw [← hpow]
    exact Nat.mul_lt_mul_of_pos_right (by omega) (Nat.two_pow_pos _)
  have hsum : ∀ m ∈ Finset.range (2 ^ 53), (roundedAmount n (m / 2 ^ 53) : Rat) =
      if (up 5 n - n) * 2 ^ (53 - excess 5 n) < m then (up 5 n : Rat) else (down 5 n : Rat) := by
    intro m _
    rw [roundedAmount_of_not_fits hn h]
    simp only [factor_gt_lowerShare_iff hn]
    split
    · rw [Int.cast_natCast]
    · rw [Int.cast_natCast]
  have hpow' : ((2 : Nat) ^ 53 : Nat) = (2 : Rat) ^ 53 := by rw [Nat.cast_pow, Nat.cast_ofNat]
  have hwidth' : (up 5 n : Rat) - down 5 n = 2 ^ excess 5 n := by
    rw [hwidth, Nat.cast_add, add_sub_cancel_left, Nat.cast_pow, Nat.cast_ofNat]
  have hshare : ((up 5 n - n) * 2 ^ (53 - excess 5 n) : Nat) * (2 : Rat) ^ excess 5 n =
      ((up 5 n : Rat) - n) * 2 ^ 53 := by
    rw [Nat.cast_mul, Nat.cast_sub hlt.le, mul_assoc, Nat.cast_pow, Nat.cast_ofNat, ← pow_add]
    congr 2
    omega
  rw [meanRounded, Finset.sum_congr rfl hsum, sum_range_ite_lt hc, hpow', hwidth', add_mul, hshare,
    eq_sub_iff_add_eq, ← add_div, div_eq_iff (by positivity)]
  ring

/-! ## Rounding of whole balances -/

theorem canRepresent_natCast {n : Nat} :
    canRepresent n = true ↔ (n : Int) ≤ maxAmount ∧ Fits 5 n := by
  rw [canRepresent_iff, exact_ok_iff_fits, Int.toNat_natCast]
  exact ⟨fun h => h.2, fun h => ⟨Int.natCast_nonneg n, h⟩⟩

theorem isGreatest_down {n : Nat} (hn : (n : Int) ≤ maxAmount) (h : ¬ Fits 5 n) :
    IsGreatest {k : Int | canRepresent k ∧ k < n} (down 5 n) := by
  have hle : down 5 n ≤ n := down_le
  have hne : down 5 n ≠ n := mt (down_eq_iff_fits (by decide)).1 h
  refine ⟨⟨canRepresent_natCast.2 ⟨by omega, fits_down⟩, by omega⟩, fun k hk => ?_⟩
  obtain ⟨hrep, hlt⟩ := hk
  obtain ⟨h0, -, hfits⟩ := exact_ok_iff_fits.1 (canRepresent_iff.1 hrep)
  have := le_down (by decide) hfits (by omega : k.toNat ≤ n)
  omega

theorem isLeast_up {n : Nat} (hn : (n : Int) ≤ maxAmount) (h : ¬ Fits 5 n) :
    IsLeast {k : Int | canRepresent k ∧ n < k} (up 5 n) := by
  have hlt : n < up 5 n := lt_up
  have hmax := up_le_maxAmount hn h
  refine ⟨⟨canRepresent_natCast.2 ⟨hmax, fits_up (by decide)⟩, by omega⟩, fun k hk => ?_⟩
  obtain ⟨hrep, hgt⟩ := hk
  obtain ⟨h0, -, hfits⟩ := exact_ok_iff_fits.1 (canRepresent_iff.1 hrep)
  have := up_le (by decide) hfits (by omega : n < k.toNat)
  omega

theorem lowerShare_lt_one {n : Nat} (h : ¬ Fits 5 n) : lowerShare n < 1 := by
  have hle : down 5 n ≤ n := down_le
  have hne : down 5 n ≠ n := mt (down_eq_iff_fits (by decide)).1 h
  have hpos := Nat.two_pow_pos (excess 5 n)
  have hlt : up 5 n - n < 2 ^ excess 5 n := by
    rw [up_eq_down_add]
    omega
  rw [lowerShare, div_lt_one (by positivity)]
  exact_mod_cast hlt

/-- The factor 1 rounds up to the next amount that has a value. -/
theorem rounded_one {n : Nat} (hn : (n : Int) ≤ maxAmount) :
    ∃ v, rounded n 1 = .ok v ∧ v.shift = false ∧
      IsLeast {k : Int | canRepresent k ∧ n ≤ k} v.amountOrZero := by
  by_cases h : Fits 5 n
  · refine ⟨_, (rounded_of_fits hn h 1).trans (createExactUnsafe_of_fits hn h), rfl, ?_⟩
    rw [Value.amountOrZero_eq_decode rfl, decode_encode h]
    exact ⟨⟨canRepresent_natCast.2 ⟨hn, h⟩, le_rfl⟩, fun k hk => hk.2⟩
  · have hup : Fits 5 (up 5 n) := fits_up (by decide)
    have hrounded : rounded n 1 = createExactUnsafe (up 5 n) := by
      rw [rounded_of_not_fits hn h, if_pos (lowerShare_lt_one h)]
    refine ⟨_, hrounded.trans (createExactUnsafe_of_fits (up_le_maxAmount hn h) hup), rfl, ?_⟩
    rw [Value.amountOrZero_eq_decode rfl, decode_encode hup]
    obtain ⟨⟨hrep, hlt⟩, hleast⟩ := isLeast_up hn h
    refine ⟨⟨hrep, hlt.le⟩, fun k hk => hleast ⟨hk.1, lt_of_le_of_ne hk.2 ?_⟩⟩
    rintro rfl
    exact h (canRepresent_natCast.1 hk.1).2

theorem rounded_of_gt {q : Rat} (hq : maxAmount < ⌈q⌉) (r : Rat) : ∃ e, rounded q r = .error e := by
  unfold rounded
  split
  · exact ⟨_, rfl⟩
  · have hmax : (⌈q⌉.toNat : Int) > maxAmount := lt_of_lt_of_le hq (Int.self_le_toNat _)
    simp only [if_pos hmax]
    exact ⟨_, rfl⟩

/-- `Rounded` of a whole amount never fails, is monotone in the factor and keeps an amount that has
a value. Any other amount is rounded to its neighbours, up for the factor 1, and on average over the
drawn factors it stays within one factor of where it was. -/
theorem rounded_tight_fair {a : Int} (h0 : 0 ≤ a) (hmax : a ≤ maxAmount) :
    (∀ r, Factor r → ∃ v, rounded a r = .ok v) ∧
      (∀ r r', Factor r → Factor r' → r ≤ r' → roundedAmount a r ≤ roundedAmount a r') ∧
      (canRepresent a → (∀ r, Factor r → roundedAmount a r = a) ∧ meanRounded a = a) ∧
      (¬ canRepresent a → ∃ lo hi,
        IsGreatest {n : Int | canRepresent n ∧ n < a} lo ∧
          IsLeast {n : Int | canRepresent n ∧ a < n} hi ∧
          (∀ r, Factor r → roundedAmount a r = lo ∨ roundedAmount a r = hi) ∧
          roundedAmount a 1 = hi ∧ |meanRounded a - a| ≤ ((hi - lo : Int) : Rat) / 2 ^ 53) := by
  obtain ⟨n, rfl⟩ := Int.eq_ofNat_of_zero_le h0
  refine ⟨fun r _ => ?_, fun r r' _ _ hr => roundedAmount_mono hmax hr, fun hrep => ?_,
    fun hrep => ?_⟩
  · rw [Int.cast_natCast]
    exact rounded_returns hmax r
  · have h := (canRepresent_natCast.1 hrep).2
    refine ⟨fun r _ => roundedAmount_of_fits hmax h r, ?_⟩
    have hsum : ∀ m ∈ Finset.range (2 ^ 53), (roundedAmount n (m / 2 ^ 53) : Rat) = n := by
      intro m _
      rw [roundedAmount_of_fits hmax h, Int.cast_natCast]
    rw [meanRounded, Finset.sum_congr rfl hsum, Finset.sum_const, Finset.card_range, nsmul_eq_mul,
      Nat.cast_pow, Nat.cast_ofNat, mul_div_cancel_left₀ _ (by positivity), Int.cast_natCast]
  · have h : ¬ Fits 5 n := fun hfits => hrep (canRepresent_natCast.2 ⟨hmax, hfits⟩)
    refine ⟨down 5 n, up 5 n, isGreatest_down hmax h, isLeast_up hmax h, fun r _ => ?_, ?_, ?_⟩
    · rw [roundedAmount_of_not_fits hmax h]
      split
      · exact .inr rfl
      · exact .inl rfl
    · rw [roundedAmount_of_not_fits hmax h, if_pos (lowerShare_lt_one h)]
    · have hpos : (0 : Rat) ≤ ((up 5 n : Rat) - down 5 n) / 2 ^ 53 := by
        have hle : (down 5 n : Rat) ≤ up 5 n := by exact_mod_cast down_le.trans lt_up.le
        exact div_nonneg (sub_nonneg.2 hle) (by positivity)
      rw [meanRounded_eq hmax h, Int.cast_natCast, sub_sub_cancel_left, abs_neg, abs_of_nonneg hpos,
        Int.cast_sub, Int.cast_natCast, Int.cast_natCast]

theorem rounded_tight_fair_69 :
    ∃ lo hi, IsGreatest {n : Int | canRepresent n ∧ n < 69} lo ∧
      IsLeast {n : Int | canRepresent n ∧ 69 < n} hi ∧ roundedAmount 69 1 = hi ∧
      |meanRounded 69 - 69| ≤ ((hi - lo : Int) : Rat) / 2 ^ 53 := by
  have hrep : ¬ canRepresent 69 := by decide
  obtain ⟨lo, hi, hlo, hhi, -, h1, hmean⟩ :=
    (rounded_tight_fair (a := 69) (by decide) (by decide)).2.2.2 hrep
  exact ⟨lo, hi, hlo, hhi, h1, hmean⟩

end Anonpay
