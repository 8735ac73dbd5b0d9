import OpenPCC.Attest.Proof.EventLog

/-!
# The replay and the registers of a TPM

A register of a TPM starts with zero bytes, and each event of a boot extends the register it names
(`Hash.measure`). The replay of a log computes the same value for a register that the log extends
(`follows_checksum`). For any other register it computes the empty string, while the TPM quotes the
zero bytes (`checksum_eq_measure_iff`).
-/

namespace Attest

open Go

/-! ## The TPM -/

/-- The registers of a TPM after a reset. -/
def Hash.reset (h : Hash) : UInt32 → Bytes := fun _ => List.replicate h.size 0

/-- `TPM2_PCR_Extend`. -/
def Hash.extendRegister (h : Hash) (registers : UInt32 → Bytes) (event : Event) : UInt32 → Bytes :=
  Function.update registers event.pcrIndex
    (h.sum (registers event.pcrIndex ++ event.digest)).toList

/-- The registers after a boot that measures the events. -/
def Hash.measure (h : Hash) (events : List Event) : UInt32 → Bytes :=
  events.foldl h.extendRegister h.reset

/-- The quoted registers are those of a TPM that measured the events, except for the one that the
firmware does not extend. -/
def Hash.Honest (h : Hash) (events : List Event) (values : PCRValues) : Prop :=
  ∀ k v, values.lookup k = some v → (k.toNat : Int) ≠ modelHashPCRIndex → v = h.measure events k

/-- The log has an event of the register. -/
def Touched (events : List Event) (k : UInt32) : Prop := ∃ e ∈ events, e.pcrIndex = k

instance (events : List Event) (k : UInt32) : Decidable (Touched events k) :=
  inferInstanceAs (Decidable (∃ e ∈ events, _))

/-! ## The replay follows the TPM -/

/-- The replay of a register stands for the TPM's value: it is empty until the first event. -/
def Follows (h : Hash) (checksum register : Bytes) : Prop :=
  (if checksum.length ≠ 0 then checksum else List.replicate h.size 0) = register

theorem follows_step {h : Hash} {k : UInt32} {checksum : Bytes} {registers : UInt32 → Bytes}
    (hsize : 0 < h.size) (hfollows : Follows h checksum (registers k)) (e : Event) :
    Follows h (h.replayEvent k checksum e) (h.extendRegister registers e k) := by
  rw [Hash.replayEvent, Hash.extendRegister]
  split
  · next hne =>
    rw [Function.update_of_ne (Ne.symm hne)]
    exact hfollows
  · next heq =>
    obtain rfl := not_not.1 heq
    unfold Follows at hfollows ⊢
    rw [Function.update_self, Hash.extend, hfollows, if_pos]
    rw [Vector.length_toList]
    omega

theorem follows_foldl {h : Hash} {k : UInt32} (hsize : 0 < h.size) (events : List Event)
    {checksum : Bytes} {registers : UInt32 → Bytes} (hfollows : Follows h checksum (registers k)) :
    Follows h (events.foldl (h.replayEvent k) checksum)
      (events.foldl h.extendRegister registers k) := by
  induction events generalizing checksum registers with
  | nil => exact hfollows
  | cons e events ih => exact ih (follows_step hsize hfollows e)

theorem follows_checksum {h : Hash} (hsize : 0 < h.size) (events : List Event) (k : UInt32) :
    Follows h (calculateEventLogChecksum (some h) events k) (h.measure events k) :=
  follows_foldl hsize events rfl

theorem checksum_eq_nil_iff {h : Hash} (hsize : 0 < h.size) {events : List Event} {k : UInt32} :
    calculateEventLogChecksum (some h) events k = [] ↔ ¬ Touched events k := by
  rw [calculateEventLogChecksum, foldl_replay_eq_nil hsize, and_iff_right rfl, Touched]
  push Not
  exact Iff.rfl

/-- The replay computes the register of the TPM exactly if the log extends it. -/
theorem checksum_eq_measure_iff {h : Hash} (hsize : 0 < h.size) {events : List Event}
    {k : UInt32} :
    calculateEventLogChecksum (some h) events k = h.measure events k ↔ Touched events k := by
  have hfollows := follows_checksum hsize events k
  unfold Follows at hfollows
  by_cases ht : Touched events k
  · have hne : calculateEventLogChecksum (some h) events k ≠ [] :=
      fun hnil => (checksum_eq_nil_iff hsize).1 hnil ht
    rw [if_pos (mt List.length_eq_zero_iff.1 hne)] at hfollows
    exact iff_of_true hfollows ht
  · have hnil := (checksum_eq_nil_iff hsize).2 ht
    rw [hnil] at hfollows ⊢
    rw [← hfollows]
    refine iff_of_false (fun hzero => ?_) ht
    have hlen := congrArg List.length hzero
    simp only [List.length_nil, ne_eq, not_true_eq_false, if_false, List.length_replicate] at hlen
    omega

/-- The digests that go into a register are those of its events, in the order of the log. -/
theorem measure_eq_foldl (h : Hash) (events : List Event) (k : UInt32) :
    h.measure events k =
      ((events.filter (·.pcrIndex = k)).map (·.digest)).foldl
        (fun old digest => (h.sum (old ++ digest)).toList) (List.replicate h.size 0) := by
  have hfold : ∀ registers : UInt32 → Bytes, events.foldl h.extendRegister registers k =
      ((events.filter (·.pcrIndex = k)).map (·.digest)).foldl
        (fun old digest => (h.sum (old ++ digest)).toList) (registers k) := by
    induction events with
    | nil => exact fun _ => rfl
    | cons e events ih =>
      intro registers
      rw [List.foldl_cons, ih, Hash.extendRegister]
      by_cases he : e.pcrIndex = k
      · subst he
        rw [Function.update_self, List.filter_cons_of_pos (by simp), List.map_cons,
          List.foldl_cons]
      · rw [Function.update_of_ne (Ne.symm he), List.filter_cons_of_neg (by simpa using he)]
  exact hfold h.reset

/-- An honest log passes the comparison with the quoted registers exactly if it extends each of
them. -/
theorem honest_passes_iff {b : Boot} {h : Hash} (hsha : b.hash .sha256 = some h)
    (hsize : 0 < h.size) {events : List Event} {values : PCRValues}
    (hhonest : h.Honest events values) :
    b.verifyRegisters events values.toMRs = .ok () ↔
      ∀ k ∈ values, (k.toNat : Int) ≠ modelHashPCRIndex → Touched events k := by
  rw [verifyRegisters_toMRs, Boot.Replays, hsha]
  constructor
  · intro hreplays k hk hmodel
    obtain ⟨v, hv⟩ := Option.isSome_iff_exists.1 (AList.lookup_isSome.2 hk)
    rw [← checksum_eq_measure_iff hsize, ← hhonest k v hv hmodel]
    exact hreplays k v hv hmodel
  · intro htouched k v hv hmodel
    have hk : k ∈ values := AList.lookup_isSome.1 (by rw [hv]; rfl)
    rw [hhonest k v hv hmodel]
    exact (checksum_eq_measure_iff hsize).2 (htouched k hk hmodel)

/-- The replay agrees with the TPM for the registers that the log extends, and an honest log passes
if the quoted registers are such. -/
theorem replay_agrees_iff {b : Boot} {h : Hash} (hsha : b.hash .sha256 = some h)
    (hsize : h.size = 32) (events : List Event) :
    (∀ k, calculateEventLogChecksum (b.hash .sha256) events k =
        ((events.filter (·.pcrIndex = k)).map (·.digest)).foldl
          (fun old digest => (h.sum (old ++ digest)).toList) (List.replicate 32 0) ↔
      Touched events k) ∧
    ∀ values, h.Honest events values →
      (b.verifyRegisters events values.toMRs = .ok () ↔
        ∀ k ∈ values, (k.toNat : Int) ≠ modelHashPCRIndex → Touched events k) := by
  have hpos : 0 < h.size := by omega
  refine ⟨fun k => ?_, fun values hhonest => honest_passes_iff hsha hpos hhonest⟩
  rw [hsha, ← hsize, ← measure_eq_foldl]
  exact checksum_eq_measure_iff hpos

/-! ## Logs of a test boot -/

/-- A hash of 32 bytes, for the registers of a boot with one event. -/
def paddedHash : Hash := ⟨32, fun b => Vector.replicate 32 (UInt8.ofNat (b.length + 1))⟩

def paddedBoot : Boot where
  unmarshalFirmwareLogState _ := .error (.new "proto: cannot parse invalid wire-format data" [])
  hash _ := some paddedHash

/-- One event of register 8. -/
def cmdlineLog : List Event := [⟨8, [], [1]⟩]

/-- A quote of one register after the boot. -/
def quoteAfter (k : UInt32) : PCRValues :=
  (∅ : PCRValues).insert k (paddedHash.measure cmdlineLog k)

theorem honest_quoteAfter (k : UInt32) : paddedHash.Honest cmdlineLog (quoteAfter k) := by
  intro k' v hv _
  by_cases hne : k' = k
  · subst hne
    rw [quoteAfter, AList.lookup_insert] at hv
    exact (Option.some.inj hv).symm
  · rw [quoteAfter, AList.lookup_insert_ne hne, AList.lookup_empty] at hv
    cases hv

theorem replay_agrees_cmdlineLog :
    paddedHash.Honest cmdlineLog (quoteAfter 8) ∧
      paddedBoot.verifyRegisters cmdlineLog (quoteAfter 8).toMRs = .ok () := by
  have hpasses := (replay_agrees_iff (b := paddedBoot) rfl rfl cmdlineLog).2 _ (honest_quoteAfter 8)
  refine ⟨honest_quoteAfter 8, hpasses.2 fun k hk _ => ?_⟩
  obtain rfl | hempty := (AList.mem_insert _).1 hk
  · decide
  · exact absurd hempty (AList.notMem_empty k)

/-- Register 1 is quoted, which no event extends. -/
theorem honest_log_rejected :
    calculateEventLogChecksum (some paddedHash) cmdlineLog 1 = [] ∧
      paddedHash.measure cmdlineLog 1 = List.replicate 32 0 ∧
      paddedHash.Honest cmdlineLog (quoteAfter 1) ∧
      paddedBoot.verifyRegisters cmdlineLog (quoteAfter 1).toMRs ≠ .ok () := by
  refine ⟨by decide, by decide, honest_quoteAfter 1, ?_⟩
  rw [ne_eq, honest_passes_iff rfl (by decide) (honest_quoteAfter 1)]
  intro htouched
  exact absurd (htouched 1 ((AList.mem_insert _).2 (.inl rfl)) (by decide)) (by decide)

end Attest
