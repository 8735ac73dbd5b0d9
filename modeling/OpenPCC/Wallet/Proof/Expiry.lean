import OpenPCC.Wallet.Expiry

/-!
# Wallet and locker on expired credits

The wallet keeps a stack until the oldest stamp is a lifespan ago (`expiresIn_pos_iff`). The locker
takes a nonce only while its stamp is not before the current hour, so a nonce of an earlier hour is
refused although the wallet keeps it. A nonce that was just created is accepted
(`safeNonceTimestamp_accepted`).
-/

namespace Wallet

open Go Anonpay

/-! ## Stamps -/

theorem roundDownNonceTimestamp_bounds (t : Int) :
    t - 3600 < roundDownNonceTimestamp t ∧ roundDownNonceTimestamp t < t + 3600 := by
  have hmod := Int.mul_tdiv_add_tmod t 3600
  have hlt : t.tmod 3600 < 3600 := Int.tmod_lt_of_pos t (by decide)
  have hgt : -3600 < t.tmod 3600 := Int.lt_tmod_of_pos t (by decide)
  have hround : roundDownNonceTimestamp t = t.tdiv 3600 * 3600 := rfl
  rw [hround]
  constructor <;> omega

theorem stamp_eq (c : Creation) : (safeNonceTimestamp c.time c.randomFactor).1 = c.stamp := by
  unfold safeNonceTimestamp Creation.stamp
  simp only
  split
  · rfl
  · rw [Int.add_zero]

theorem stamp_lt (c : Creation) : c.stamp < c.time + 7200 := by
  have hround := (roundDownNonceTimestamp_bounds c.time).2
  have hquantum : nonceTimeQuantizationSeconds = 3600 := rfl
  unfold Creation.stamp
  split <;> omega

theorem timestamps_of_stamped {credits : List BlindedCredit} {creations : List Creation}
    (h : Stamped credits creations) :
    credits.map (·.nonce.timestamp) = creations.map Creation.stamp := by
  have hfst := congrArg (List.map Prod.fst) h
  simp only [List.map_map] at hfst
  exact hfst.trans (List.map_congr_left fun c _ => stamp_eq c)

/-! ## The locker -/

/-- A nonce that was created in the past is refused only for a stamp before the current hour. -/
theorem isExpiredAt_eq_false_iff {n : Nonce} {t : Int} (h : n.timestamp < t + 7200) :
    n.isExpiredAt t = false ↔
      roundDownNonceTimestamp (t - nonceMaxClockSkewSeconds) ≤ n.timestamp := by
  have hmax := (roundDownNonceTimestamp_bounds
    (t + (nonceLifespanSeconds + nonceMaxClockSkewSeconds))).1
  have hspan : nonceLifespanSeconds + nonceMaxClockSkewSeconds = 93630 := rfl
  simp only [Nonce.isExpiredAt, Bool.or_eq_false_iff, decide_eq_false_iff_not, not_lt, gt_iff_lt]
  constructor
  · intro hn
    exact hn.1
  · intro hn
    exact ⟨hn, by omega⟩

/-! ## Fresh nonces -/

theorem roundDownNonceTimestamp_mono {t t' : Int} (h : t ≤ t') :
    roundDownNonceTimestamp t ≤ roundDownNonceTimestamp t' :=
  Int.mul_le_mul_of_nonneg_right (Int.tdiv_le_tdiv (by decide) h) (by decide)

theorem roundDownNonceTimestamp_dvd (t : Int) :
    nonceTimeQuantizationSeconds ∣ roundDownNonceTimestamp t :=
  Dvd.intro_left _ rfl

theorem roundDownNonceTimestamp_le {t : Int} (h : 0 ≤ t) : roundDownNonceTimestamp t ≤ t := by
  have hround : roundDownNonceTimestamp t = t.tdiv 3600 * 3600 := rfl
  rw [hround, Int.tdiv_eq_ediv_of_nonneg h]
  omega

theorem isExpiredAt_of_skew {n : Nonce} {t server : Int}
    (hlow : roundDownNonceTimestamp t ≤ n.timestamp) (hhigh : n.timestamp ≤ t + 3600)
    (hserver : t - nonceMaxClockSkewSeconds ≤ server ∧ server ≤ t + nonceMaxClockSkewSeconds) :
    n.isExpiredAt server = false := by
  have hskew : nonceMaxClockSkewSeconds = 30 := rfl
  rw [isExpiredAt_eq_false_iff (by omega)]
  exact (roundDownNonceTimestamp_mono (by omega)).trans hlow

/-- The last Unix time that a `time.Time` holds: it counts from the year 1 in an `int64`. -/
def maxUnix : Int := maxInt64 - 62135596800

/-- A nonce is stamped with the current or the next period, and accepted at once by every server
whose clock is within the skew. -/
theorem safeNonceTimestamp_accepted {t : Int} (h0 : 0 ≤ t) (randomFactor : Rat) {ts : Int}
    {unsafeIncrement : Bool} (hts : safeNonceTimestamp t randomFactor = (ts, unsafeIncrement)) :
    nonceTimeQuantizationSeconds ∣ ts ∧ t - 3600 < ts ∧ ts ≤ t + 3600 ∧
      (unsafeIncrement = true ↔
        ts = roundDownNonceTimestamp t + 3600 ∧ t - roundDownNonceTimestamp t < 30) ∧
      (t ≤ maxUnix → int64 ts = ts) ∧
      ∀ (nonce : Bytes) (now : Int),
        |now - t * nanosecond| ≤ nonceMaxClockSkewSeconds * nanosecond →
          Nonce.isExpiredAt ⟨ts, nonce, unsafeIncrement⟩ (unix now) = false := by
  have hgt := (roundDownNonceTimestamp_bounds t).1
  have hle := roundDownNonceTimestamp_le h0
  have hdvd := roundDownNonceTimestamp_dvd t
  have hmin : nonceMinimumSafeTimeSeconds = 30 := rfl
  have hquantum : nonceTimeQuantizationSeconds = 3600 := rfl
  -- the two branches: the stamp, and the flag as a proposition
  have hcases : (ts = roundDownNonceTimestamp t + 3600 ∧
        (unsafeIncrement = true ↔ t - roundDownNonceTimestamp t < 30)) ∨
      ts = roundDownNonceTimestamp t ∧ unsafeIncrement = false := by
    simp only [safeNonceTimestamp, hmin, hquantum] at hts
    split at hts
    · cases hts
      exact .inl ⟨rfl, decide_eq_true_iff⟩
    · cases hts
      exact .inr ⟨rfl, rfl⟩
  have hstamp : roundDownNonceTimestamp t ≤ ts ∧ ts ≤ roundDownNonceTimestamp t + 3600 := by
    omega
  refine ⟨?_, by omega, by omega, ?_, fun hmax => ?_, fun nonce now hnow => ?_⟩
  · obtain ⟨rfl, -⟩ | ⟨rfl, -⟩ := hcases
    · exact Int.dvd_add hdvd (Int.dvd_refl 3600)
    · exact hdvd
  · obtain ⟨rfl, hflag⟩ | ⟨rfl, rfl⟩ := hcases
    · rw [hflag, and_iff_right rfl]
    · simp
  · have hlast : maxUnix = 9223371974719179007 := rfl
    have hmaxInt : maxInt64 = 9223372036854775807 := rfl
    exact int64_eq_of_range (by omega) (by omega)
  · have hskew : nonceMaxClockSkewSeconds = 30 := rfl
    have hsecond : nanosecond = 1000000000 := rfl
    have hserver : t - nonceMaxClockSkewSeconds ≤ unix now ∧
        unix now ≤ t + nonceMaxClockSkewSeconds := by
      rw [abs_le, hskew, hsecond] at hnow
      rw [unix, hsecond, hskew]
      omega
    exact isExpiredAt_of_skew hstamp.1 (by simp only; omega) hserver

/-- A nonce of the last second of an hour, stamped with the next one, at a server whose clock is
half a minute behind. -/
theorem safeNonceTimestamp_accepted_7199 :
    safeNonceTimestamp 7199 (1 / 2) = (7200, false) ∧
      Nonce.isExpiredAt ⟨7200, [], false⟩ (unix (7169 * nanosecond)) = false := by
  have hts : safeNonceTimestamp 7199 (1 / 2) = (7200, false) := by
    decide +kernel
  exact ⟨hts, (safeNonceTimestamp_accepted (by decide) _ hts).2.2.2.2.2 [] _ (by decide)⟩

/-! ## The wallet -/

namespace CreditStack

theorem lowestFrom_spec (credits : List BlindedCredit) (lowest : Int) :
    (lowestFrom lowest credits = lowest ∨
        lowestFrom lowest credits ∈ credits.map (·.nonce.timestamp)) ∧
      lowestFrom lowest credits ≤ lowest ∧
      ∀ t ∈ credits.map (·.nonce.timestamp), lowestFrom lowest credits ≤ t := by
  induction credits generalizing lowest with
  | nil => simp [lowestFrom]
  | cons credit credits ih =>
    rw [lowestFrom]
    split
    · next hlt =>
      obtain ⟨hmem, hle, hall⟩ := ih credit.nonce.timestamp
      refine ⟨.inr ?_, hle.trans hlt.le, ?_⟩
      · rwa [List.map_cons, List.mem_cons]
      · simp only [List.map_cons, List.forall_mem_cons]
        exact ⟨hle, hall⟩
    · next hge =>
      obtain ⟨hmem, hle, hall⟩ := ih lowest
      refine ⟨hmem.imp_right (List.mem_cons_of_mem _), hle, ?_⟩
      simp only [List.map_cons, List.forall_mem_cons]
      exact ⟨hle.trans (not_lt.1 hge), hall⟩

theorem lowestTimestamp_spec {credits : List BlindedCredit} (hne : credits ≠ []) :
    lowestTimestamp credits ∈ credits.map (·.nonce.timestamp) ∧
      ∀ t ∈ credits.map (·.nonce.timestamp), lowestTimestamp credits ≤ t := by
  cases credits with
  | nil => exact absurd rfl hne
  | cons credit credits =>
    obtain ⟨hmem, hle, hall⟩ := lowestFrom_spec credits credit.nonce.timestamp
    refine ⟨List.mem_cons.2 hmem, ?_⟩
    simp only [lowestTimestamp, List.map_cons, List.forall_mem_cons]
    exact ⟨hle, hall⟩

theorem expiresIn_pos_iff {s : CreditStack} {now : Int}
    (h : lowestTimestamp s.credits < unix now + 7200) :
    0 < s.expiresIn now ↔
      now < (lowestTimestamp s.credits + nonceLifespanSeconds) * nanosecond := by
  have hsecond : nanosecond = 1000000000 := rfl
  have hspan : nonceLifespanSeconds = 93600 := rfl
  have hmax : maxInt64 = 9223372036854775807 := rfl
  unfold unix at h
  rw [hsecond] at h
  rw [expiresIn, timeSub, hsecond, hspan]
  rw [int64_eq_of_range (by omega) (by omega)]
  omega

/-- The wallet and the locker agree on a stack of nonces that were created in the past if a stamp of
it is a lifespan ago or no stamp is before the current hour. -/
theorem expiryAgrees_iff {s : CreditStack} {creations : List Creation} {now : Int}
    (hne : s.credits ≠ []) (hstamped : Stamped s.credits creations)
    (hpast : ∀ c ∈ creations, c.time ≤ unix now) :
    s.ExpiryAgrees now ↔
      (∃ c ∈ creations, (c.stamp + nonceLifespanSeconds) * nanosecond ≤ now) ∨
        ∀ c ∈ creations,
          roundDownNonceTimestamp (unix now - nonceMaxClockSkewSeconds) ≤ c.stamp := by
  have hstamps := timestamps_of_stamped hstamped
  obtain ⟨hmem, hleast⟩ := lowestTimestamp_spec hne
  rw [hstamps] at hmem hleast
  obtain ⟨oldest, holdest, hlowest⟩ := List.mem_map.1 hmem
  have hrecent : ∀ c ∈ creations, c.stamp < unix now + 7200 := by
    intro c hc
    have hlt := stamp_lt c
    have hle := hpast c hc
    omega
  -- the stack is past its time if one of the nonces is
  have hwallet : ¬ 0 < s.expiresIn now ↔
      ∃ c ∈ creations, (c.stamp + nonceLifespanSeconds) * nanosecond ≤ now := by
    rw [expiresIn_pos_iff (hlowest ▸ hrecent oldest holdest), not_lt]
    constructor
    · intro hle
      exact ⟨oldest, holdest, hlowest ▸ hle⟩
    · rintro ⟨c, hc, hle⟩
      have hmin := hleast _ (List.mem_map_of_mem hc)
      unfold nanosecond at hle ⊢
      omega
  have hlocker : (∀ credit ∈ s.credits, credit.nonce.isExpiredAt (unix now) = false) ↔
      ∀ c ∈ creations, roundDownNonceTimestamp (unix now - nonceMaxClockSkewSeconds) ≤ c.stamp := by
    have htimestamps : (∀ credit ∈ s.credits,
        roundDownNonceTimestamp (unix now - nonceMaxClockSkewSeconds) ≤ credit.nonce.timestamp) ↔
        ∀ c ∈ creations,
          roundDownNonceTimestamp (unix now - nonceMaxClockSkewSeconds) ≤ c.stamp := by
      rw [← List.forall_mem_map (f := (fun credit : BlindedCredit => credit.nonce.timestamp)),
        hstamps, List.forall_mem_map]
    rw [← htimestamps]
    refine forall_congr' fun credit => imp_congr_right fun hcredit => isExpiredAt_eq_false_iff ?_
    have hin : credit.nonce.timestamp ∈ creations.map Creation.stamp := by
      rw [← hstamps]
      exact List.mem_map_of_mem hcredit
    obtain ⟨c, hc, hstamp⟩ := List.mem_map.1 hin
    exact hstamp ▸ hrecent c hc
  rw [ExpiryAgrees, hlocker, ← hwallet, imp_iff_not_or]

/-- A stack with one credit, whose nonce was created at 10 o'clock. -/
def stampedStack : CreditStack where
  maxCredits := 1
  credits := [⟨zeroValue, ⟨36000, [], false⟩, []⟩]

theorem expiryAgrees_same_hour :
    Stamped stampedStack.credits [⟨36000, 0⟩] ∧
      stampedStack.ExpiryAgrees (39629 * nanosecond) := by
  have hstamped : Stamped stampedStack.credits [⟨36000, 0⟩] := by
    decide +kernel
  refine ⟨hstamped, (expiryAgrees_iff (by decide) hstamped (by decide)).2 (.inr ?_)⟩
  decide +kernel

/-- At 11:00:30 the wallet keeps the credit for another 25 hours, and the locker refuses it. -/
theorem kept_credit_expired :
    Stamped stampedStack.credits [⟨36000, 0⟩] ∧
      stampedStack.expiresIn (39630 * nanosecond) = 89970 * nanosecond ∧
      ¬ stampedStack.ExpiryAgrees (39630 * nanosecond) := by
  refine ⟨by decide +kernel, by decide, fun h => ?_⟩
  have hexpired := h (by decide) _ (List.mem_cons_self ..)
  revert hexpired
  decide

end CreditStack

end Wallet
