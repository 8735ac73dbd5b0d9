import Mathlib.Logic.Equiv.List
import OpenPCC.Attest.EventLog
import OpenPCC.Cmdline.Proof.Parser

/-!
# What the event-log verdict depends on

The replay reads the register index and the digest of each event and nothing else
(`checksum_map`); the command-line check reads the data of the events of register 8, and the
secure-boot state stands in the log beside the events. No check ties the data or the secure-boot
state to a digest. So any list of events that replays to the expected registers can be given data
that passes (`exists_accepted`), and the same log without secure boot is rejected: the verdict
is a function of what was measured only where nothing is accepted at all
(`eventLog_measured_iff`).
-/

namespace Attest

open Go

/-! ## The replay -/

section Replay

variable {h : Hash} {k : UInt32}

theorem replayEvent_eq_nil (hsize : 0 < h.size) {c : Bytes} {e : Event} :
    h.replayEvent k c e = [] ↔ c = [] ∧ e.pcrIndex ≠ k := by
  have hext : h.extend c e.digest ≠ [] := by
    intro hnil
    have hlen := congrArg List.length hnil
    rw [Hash.extend, Vector.length_toList, List.length_nil] at hlen
    omega
  rw [Hash.replayEvent]
  split
  · next hne => simp [hne]
  · next heq => simp [hext, not_not.1 heq]

theorem foldl_replay_eq_nil (hsize : 0 < h.size) {events : List Event} {c : Bytes} :
    events.foldl (h.replayEvent k) c = [] ↔ c = [] ∧ ∀ e ∈ events, e.pcrIndex ≠ k := by
  induction events generalizing c with
  | nil => simp
  | cons e events ih =>
    rw [List.foldl_cons, ih, replayEvent_eq_nil hsize, List.forall_mem_cons, and_assoc]

theorem checksum_map {f : Event → Event} (hf : ∀ e, (f e).pcrIndex = e.pcrIndex)
    (hd : ∀ e, (f e).digest = e.digest) (hash : Option Hash) (events : List Event) :
    calculateEventLogChecksum hash (events.map f) k = calculateEventLogChecksum hash events k := by
  cases hash with
  | none => rfl
  | some h =>
    have hstep : ∀ c e, h.replayEvent k c (f e) = h.replayEvent k c e := fun c e => by
      rw [Hash.replayEvent, Hash.replayEvent, hf, hd]
    simp only [calculateEventLogChecksum, List.foldl_map, hstep]

theorem checksum_concat {e : Event} (he : e.pcrIndex ≠ k) (hash : Option Hash)
    (events : List Event) :
    calculateEventLogChecksum hash (events ++ [e]) k = calculateEventLogChecksum hash events k := by
  cases hash with
  | none => rfl
  | some h => simp [calculateEventLogChecksum, Hash.replayEvent, he]

end Replay

theorem verifyRegisters_eq_ok_iff (b : Boot) (events : List Event) (expected : List MR) :
    b.verifyRegisters events expected = .ok () ↔ ∀ pcr ∈ expected,
      (0 ≤ pcr.idx ∧ pcr.idx ≤ 2 ^ 32 - 1) ∧ (pcr.idx ≠ modelHashPCRIndex →
        calculateEventLogChecksum (b.hash pcr.dgstAlg) events (UInt32.ofNat pcr.idx.toNat) =
          pcr.dgst) := by
  induction expected with
  | nil => simp [Boot.verifyRegisters]
  | cons pcr expected ih =>
    rw [List.forall_mem_cons, ← ih, Boot.verifyRegisters]
    split
    · next hrange => simp; omega
    · next hrange =>
      have hrange' : 0 ≤ pcr.idx ∧ pcr.idx ≤ 2 ^ 32 - 1 := by omega
      split
      · next hmodel =>
        exact ⟨fun h => ⟨⟨hrange', fun hne => absurd hmodel hne⟩, h⟩, fun h => h.2⟩
      · next hmodel =>
        dsimp only
        split
        · next hne => simp [hmodel, hne]
        · next heq =>
          exact ⟨fun h => ⟨⟨hrange', fun _ => not_not.1 heq⟩, h⟩, fun h => h.2⟩

theorem verifyRegisters_toMRs (b : Boot) (events : List Event) (values : PCRValues) :
    b.verifyRegisters events values.toMRs = .ok () ↔ b.Replays events values := by
  rw [verifyRegisters_eq_ok_iff]
  simp only [PCRValues.toMRs, List.mem_map, forall_exists_index, and_imp,
    forall_apply_eq_imp_iff₂]
  constructor
  · intro hall k v hk hmodel
    have h := (hall ⟨k, v⟩ (AList.mem_lookup_iff.1 hk)).2 hmodel
    simpa using h
  · rintro hall ⟨k, v⟩ he
    have hlt := k.toNat_lt
    refine ⟨by dsimp only; omega, fun hmodel => ?_⟩
    have h := hall k v (AList.mem_lookup_iff.2 he) hmodel
    simpa using h

/-! ## The command line -/

theorem verifyKernelCmdline_eq_ok_iff (events : List Event) (m : ImageManifest) :
    verifyKernelCmdline events m = .ok () ↔ ∃ customData kernelCmdline rest,
      m.customData = some customData ∧ customData.kernelCmdlines = kernelCmdline :: rest ∧
      events.foldlM (verifyEvent kernelCmdline.confsecRoot) false = .ok true := by
  rw [verifyKernelCmdline]
  split
  · next hcd => simp [hcd]
  · next customData hcd =>
    split
    · next hks => simp [hcd, hks]
    · next kernelCmdline rest hks =>
      split <;> next hfold => simp [hcd, hks, hfold]

theorem verifyEvent_cases {root : Bytes} {v v' : Bool} {e : Event}
    (h : verifyEvent root v e = .ok v') :
    v' = v ∨ e.pcrIndex = kernelCmdlinePCRIndex ∧ IsText root := by
  rw [verifyEvent] at h
  split at h
  · left
    cases h
    rfl
  · next hidx =>
    split at h
    · left
      cases h
      rfl
    · split at h
      · cases h
      · next cmdlineMap hparse =>
        split at h
        · cases h
        · next confsecRoot hroot =>
          split at h
          · cases h
          · next heq =>
            right
            rw [not_not] at hidx heq
            exact ⟨hidx, heq ▸ Cmdline.parse_values hparse _ _ hroot⟩

theorem foldlM_verifyEvent_true {root : Bytes} {events : List Event}
    (h : events.foldlM (verifyEvent root) false = .ok true) :
    IsText root ∧ ∃ e ∈ events, e.pcrIndex = kernelCmdlinePCRIndex := by
  induction events with
  | nil => cases h
  | cons e events ih =>
    rw [List.foldlM_cons] at h
    cases hv : verifyEvent root false e with
    | error err =>
      rw [hv] at h
      cases h
    | ok v =>
      rw [hv] at h
      obtain rfl | ⟨hidx, htext⟩ := verifyEvent_cases hv
      · obtain ⟨htext, e', he', hidx⟩ := ih h
        exact ⟨htext, e', List.mem_cons_of_mem _ he', hidx⟩
      · exact ⟨htext, e, List.mem_cons_self, hidx⟩

/-- A command line that names the root `cs`. -/
def forgedCmdline (cs : List Char) : Bytes :=
  utf8 ('k' :: ("ernel_cmdline: confsec.root=\"".toList ++ cs.flatMap Cmdline.escape) ++ ['"'])

theorem tag_prefix_forgedCmdline (cs : List Char) : cmdlineTag <+: forgedCmdline cs := by
  refine ⟨utf8 (" confsec.root=\"".toList ++ cs.flatMap Cmdline.escape ++ ['"']), ?_⟩
  rw [cmdlineTag, forgedCmdline, ← utf8_append]
  rfl

theorem parse_forgedCmdline (cs : List Char) :
    ∃ m, Cmdline.parse (forgedCmdline cs) = .ok m ∧ m.lookup confsecRootKey = some (utf8 cs) := by
  have hp : Cmdline.Parser.run {} 0
      (Cmdline.runesOf ('k' :: "ernel_cmdline: confsec.root=\"".toList)) =
      .ok { currentKey := confsecRootKey, state := .valueQuoted,
            result := AList.singleton cmdlineTag [] } := rfl
  exact Cmdline.parse_quoted (by decide) hp rfl rfl (by decide) rfl cs

/-- The event with the data of a forged command line, if it is of register 8. -/
def forge (cs : List Char) (e : Event) : Event :=
  if e.pcrIndex = kernelCmdlinePCRIndex then { e with data := forgedCmdline cs } else e

theorem forge_pcrIndex (cs : List Char) (e : Event) : (forge cs e).pcrIndex = e.pcrIndex := by
  rw [forge]
  split <;> rfl

theorem forge_digest (cs : List Char) (e : Event) : (forge cs e).digest = e.digest := by
  rw [forge]
  split <;> rfl

theorem verifyEvent_forge (cs : List Char) (v : Bool) (e : Event) :
    verifyEvent (utf8 cs) v (forge cs e) = .ok (v || e.pcrIndex == kernelCmdlinePCRIndex) := by
  by_cases he : e.pcrIndex = kernelCmdlinePCRIndex
  · obtain ⟨m, hparse, hroot⟩ := parse_forgedCmdline cs
    simp [verifyEvent, forge, he, tag_prefix_forgedCmdline cs, hparse, hroot]
  · simp [verifyEvent, forge, he]

theorem foldlM_verifyEvent_forge (cs : List Char) (events : List Event) (v : Bool) :
    (events.map (forge cs)).foldlM (verifyEvent (utf8 cs)) v =
      .ok (v || events.any fun e => e.pcrIndex == kernelCmdlinePCRIndex) := by
  induction events generalizing v with
  | nil =>
    rw [List.any_nil, Bool.or_false]
    rfl
  | cons e events ih =>
    rw [List.map_cons, List.foldlM_cons, verifyEvent_forge, List.any_cons, ← Bool.or_assoc]
    exact ih _

/-! ## The verdict -/

section Verdict

variable {b : Boot} {values : PCRValues} {m : ImageManifest}

theorem accepts_iff {piece : SignedEvidencePiece} :
    b.Accepts values m piece ↔ ∃ log, b.unmarshalFirmwareLogState piece.data = .ok log ∧
      log.secureBoot = some ⟨true⟩ ∧ verifyKernelCmdline log.rawEvents m = .ok () ∧
      b.Replays log.rawEvents values := by
  simp only [Boot.Accepts, Boot.eventLog, Boot.getRawEventsAndSecureBootState,
    Outcome.bind_eq_ok, Outcome.wrap_eq_ok, Outcome.ofExcept_eq_ok, Outcome.deref_eq_ok,
    Outcome.check_eq_ok, verifyRegisters_toMRs, Outcome.pure_eq]
  constructor
  · rintro ⟨_, ⟨piece', hpiece, log, hlog, hret⟩, ⟨enabled⟩, hsb, ⟨⟩, henabled, ⟨⟩, hcmd, hreg⟩
    cases hpiece
    cases hret
    cases henabled
    exact ⟨log, hlog, hsb, hcmd, hreg⟩
  · rintro ⟨log, hlog, hsb, hcmd, hreg⟩
    exact ⟨_, ⟨piece, rfl, log, hlog, rfl⟩, ⟨true⟩, hsb, (), rfl, (), hcmd, hreg⟩

theorem replays_map_forge (cs : List Char) (events : List Event) :
    b.Replays (events.map (forge cs)) values ↔ b.Replays events values := by
  simp only [Boot.Replays, checksum_map (forge_pcrIndex cs) (forge_digest cs)]

/-- An event added to a register that is not expected does not show in the replay. -/
theorem replays_concat {events : List Event} (h : b.Replays events values) {e : Event}
    (he : e.pcrIndex ∉ values) : b.Replays (events ++ [e]) values := by
  intro k v hk hmodel
  have hne : e.pcrIndex ≠ k := by
    rintro rfl
    exact he (AList.lookup_isSome.1 (by rw [hk]; rfl))
  rw [checksum_concat hne]
  exact h k v hk hmodel

/-- Forged data passes for any events, if one of them is of register 8. -/
theorem verifyKernelCmdline_forge (hm : m.HasRoot) {events : List Event}
    (h8 : ∃ e ∈ events, e.pcrIndex = kernelCmdlinePCRIndex) :
    ∃ cs, verifyKernelCmdline (events.map (forge cs)) m = .ok () := by
  obtain ⟨customData, kernelCmdline, rest, hcd, hks, cs, hroot⟩ := hm
  refine ⟨cs, (verifyKernelCmdline_eq_ok_iff _ _).2 ⟨customData, kernelCmdline, rest, hcd, hks, ?_⟩⟩
  have hany : (events.any fun e => e.pcrIndex == kernelCmdlinePCRIndex) = true := by
    obtain ⟨e, he, hidx⟩ := h8
    exact List.any_eq_true.2 ⟨e, he, by simpa using hidx⟩
  rw [hroot, foldlM_verifyEvent_forge, hany]
  rfl

/-- Events that replay to the registers can be given an event of register 8, unless the
registers say that there is none. -/
theorem exists_replays_with_cmdline {h : Hash} (hsha : b.hash .sha256 = some h)
    (hsize : 0 < h.size) {events : List Event} (hr : b.Replays events values)
    (h8 : values.lookup kernelCmdlinePCRIndex ≠ some []) :
    ∃ events', b.Replays events' values ∧ ∃ e ∈ events', e.pcrIndex = kernelCmdlinePCRIndex := by
  cases hk : values.lookup kernelCmdlinePCRIndex with
  | none =>
    have hnot := AList.lookup_eq_none.1 hk
    exact ⟨events ++ [⟨kernelCmdlinePCRIndex, [], []⟩], replays_concat hr hnot,
      ⟨kernelCmdlinePCRIndex, [], []⟩, by simp, rfl⟩
  | some v =>
    refine ⟨events, hr, ?_⟩
    have hsum := hr _ _ hk (by decide)
    by_contra hno
    push Not at hno
    rw [hsha, calculateEventLogChecksum, (foldl_replay_eq_nil hsize).2 ⟨rfl, hno⟩] at hsum
    rw [hk, ← hsum] at h8
    exact h8 rfl

theorem exists_accepted {h : Hash} (hsha : b.hash .sha256 = some h) (hsize : 0 < h.size)
    (hm : m.HasRoot) {events : List Event} (hr : b.Replays events values)
    (h8 : values.lookup kernelCmdlinePCRIndex ≠ some []) :
    ∃ events', b.Replays events' values ∧ verifyKernelCmdline events' m = .ok () := by
  obtain ⟨events', hr', h8'⟩ := exists_replays_with_cmdline hsha hsize hr h8
  obtain ⟨cs, hcs⟩ := verifyKernelCmdline_forge hm h8'
  exact ⟨events'.map (forge cs), (replays_map_forge cs events').2 hr', hcs⟩

theorem not_accepts {h : Hash} (hsha : b.hash .sha256 = some h) (hsize : 0 < h.size)
    (hno : ¬ m.HasRoot ∨ (¬ ∃ events, b.Replays events values) ∨
      values.lookup kernelCmdlinePCRIndex = some []) (piece : SignedEvidencePiece) :
    ¬ b.Accepts values m piece := by
  rw [accepts_iff]
  rintro ⟨log, -, -, hcmd, hreg⟩
  obtain ⟨customData, kernelCmdline, rest, hcd, hks, hfold⟩ :=
    (verifyKernelCmdline_eq_ok_iff _ _).1 hcmd
  obtain ⟨htext, e, he, hidx⟩ := foldlM_verifyEvent_true hfold
  obtain hm | hr | h8 := hno
  · exact hm ⟨customData, kernelCmdline, rest, hcd, hks, htext⟩
  · exact hr ⟨log.rawEvents, hreg⟩
  · have hsum := hreg _ _ h8 (by decide)
    rw [hsha, calculateEventLogChecksum, foldl_replay_eq_nil hsize] at hsum
    exact hsum.2 e he hidx

end Verdict

/-- The verdict is a function of the measured registers, and registers without register 8 are
never accepted, if and only if nothing is accepted for these registers and this manifest: the
manifest names no root, or no log replays to the registers, or register 8 is said to be empty. -/
theorem eventLog_measured_iff (b : Boot) (h : Hash) (hsha : b.hash .sha256 = some h)
    (hsize : 0 < h.size) (hpb : ∀ log, ∃ data, b.unmarshalFirmwareLogState data = .ok log)
    (values : PCRValues) (m : ImageManifest) :
    ((∀ piece piece', b.PieceReplays piece values → b.PieceReplays piece' values →
        (b.Accepts values m piece ↔ b.Accepts values m piece')) ∧
      (kernelCmdlinePCRIndex ∉ values → ∀ piece, ¬ b.Accepts values m piece)) ↔
    (¬ m.HasRoot ∨ (¬ ∃ events, b.Replays events values) ∨
      values.lookup kernelCmdlinePCRIndex = some []) := by
  constructor
  · rintro ⟨hsame, -⟩
    by_contra hcond
    simp only [not_or, not_not] at hcond
    obtain ⟨hm, ⟨events, hr⟩, h8⟩ := hcond
    obtain ⟨events', hr', hcmd⟩ := exists_accepted hsha hsize hm hr h8
    -- the same events with and without secure boot
    obtain ⟨on, hon⟩ := hpb ⟨events', some ⟨true⟩⟩
    obtain ⟨off, hoff⟩ := hpb ⟨events', some ⟨false⟩⟩
    have hacc : b.Accepts values m ⟨.eventLog, on, []⟩ :=
      accepts_iff.2 ⟨_, hon, rfl, hcmd, hr'⟩
    obtain ⟨log, hlog, hsb, -⟩ := accepts_iff.1 <|
      (hsame ⟨.eventLog, on, []⟩ ⟨.eventLog, off, []⟩ ⟨_, hon, hr'⟩ ⟨_, hoff, hr'⟩).1 hacc
    rw [hoff] at hlog
    cases hlog
    cases hsb
  · intro hno
    have hnone := not_accepts hsha hsize hno
    exact ⟨fun piece piece' _ _ => iff_of_false (hnone piece) (hnone piece'), fun _ => hnone⟩

/-- A decoder for event logs that every log has an encoding for: the length of the data is the
number of the log. -/
def unaryBoot : Boot where
  unmarshalFirmwareLogState data :=
    match (Encodable.decode data.length : Option (List (ℕ × List ℕ × List ℕ) × Option Bool)) with
    | none => .error (.new "proto: cannot parse invalid wire-format data" [])
    | some (events, secureBoot) => .ok
      ⟨events.map fun e => ⟨UInt32.ofNat e.1, e.2.1.map UInt8.ofNat, e.2.2.map UInt8.ofNat⟩,
        secureBoot.map SecureBootState.mk⟩
  hash _ := some ⟨1, fun _ => Vector.replicate 1 0⟩

theorem unaryBoot_surjective (log : FirmwareLogState) :
    ∃ data, unaryBoot.unmarshalFirmwareLogState data = .ok log := by
  obtain ⟨events, secureBoot⟩ := log
  refine ⟨List.replicate (Encodable.encode (events.map fun e => (e.pcrIndex.toNat,
    e.data.map UInt8.toNat, e.digest.map UInt8.toNat), secureBoot.map (·.enabled))) 0, ?_⟩
  simp only [unaryBoot, List.length_replicate, Encodable.encodek, List.map_map,
    Function.comp_def, UInt32.ofNat_toNat, UInt8.ofNat_toNat, List.map_id', Option.map_map,
    Option.map_id']

theorem replays_singleton {b : Boot} {h : Hash} (hsha : b.hash .sha256 = some h) (e : Event) :
    b.Replays [e] ((∅ : PCRValues).insert e.pcrIndex (h.extend [] e.digest)) := by
  intro k v hk _
  by_cases hne : k = e.pcrIndex
  · subst hne
    rw [AList.lookup_insert] at hk
    rw [hsha, ← Option.some.inj hk]
    simp [calculateEventLogChecksum, Hash.replayEvent]
  · rw [AList.lookup_insert_ne hne, AList.lookup_empty] at hk
    cases hk

def goodManifest : ImageManifest := ⟨[], some ⟨[⟨utf8 "good".toList⟩]⟩⟩

/-- Register 0 was extended once, and register 8 is said to be empty. -/
def firmwareRegisters : PCRValues :=
  AList.insert kernelCmdlinePCRIndex [] (AList.insert 0 [0] ∅)

/-- Logs without an event of register 8 replay, and none of them is accepted. -/
theorem eventLog_measured_firmware :
    (∃ piece, unaryBoot.PieceReplays piece firmwareRegisters) ∧
    (∀ piece piece', unaryBoot.PieceReplays piece firmwareRegisters →
      unaryBoot.PieceReplays piece' firmwareRegisters →
      (unaryBoot.Accepts firmwareRegisters goodManifest piece ↔
        unaryBoot.Accepts firmwareRegisters goodManifest piece')) ∧
    (kernelCmdlinePCRIndex ∉ firmwareRegisters →
      ∀ piece, ¬ unaryBoot.Accepts firmwareRegisters goodManifest piece) := by
  refine ⟨?_, (eventLog_measured_iff unaryBoot _ rfl (by decide) unaryBoot_surjective _ _).2
    (.inr (.inr (AList.lookup_insert _)))⟩
  obtain ⟨data, hdata⟩ := unaryBoot_surjective ⟨[⟨0, [], []⟩], none⟩
  refine ⟨⟨.eventLog, data, []⟩, _, hdata, fun k v hk hmodel => ?_⟩
  by_cases h8 : k = kernelCmdlinePCRIndex
  · subst h8
    rw [firmwareRegisters, AList.lookup_insert] at hk
    exact Option.some.inj hk
  · rw [firmwareRegisters, AList.lookup_insert_ne h8] at hk
    have hzero := replays_singleton (b := unaryBoot) rfl ⟨0, [], []⟩
    exact hzero k v hk hmodel

/-! ## A forged command line -/

/-- Two logs of one event of register 8, with the same digest and different command lines. -/
def twoLogs (h : Hash) : Boot where
  unmarshalFirmwareLogState data := .ok
    ⟨[⟨kernelCmdlinePCRIndex, utf8 (if data = [] then "kernel_cmdline: confsec.root=bad".toList
      else "kernel_cmdline: confsec.root=good".toList), [1]⟩], some ⟨true⟩⟩
  hash _ := some h

/-- Register 8 after the event of `twoLogs`. -/
def cmdlineRegister (h : Hash) : PCRValues :=
  (∅ : PCRValues).insert kernelCmdlinePCRIndex (h.extend [] [1])

/-- The manifest asks for the root `good`. The log that says `bad` is rejected; the log that says
`good` about the same digest is accepted, also when register 8 is not expected. -/
theorem twoLogs_verdicts (h : Hash) :
    (twoLogs h).PieceReplays ⟨.eventLog, [], []⟩ (cmdlineRegister h) ∧
    (twoLogs h).PieceReplays ⟨.eventLog, [1], []⟩ (cmdlineRegister h) ∧
    ¬ (twoLogs h).Accepts (cmdlineRegister h) goodManifest ⟨.eventLog, [], []⟩ ∧
    (twoLogs h).Accepts (cmdlineRegister h) goodManifest ⟨.eventLog, [1], []⟩ ∧
    (twoLogs h).Accepts ∅ goodManifest ⟨.eventLog, [1], []⟩ := by
  have hgood : verifyKernelCmdline [⟨kernelCmdlinePCRIndex,
      utf8 "kernel_cmdline: confsec.root=good".toList, [1]⟩] goodManifest = .ok () := by decide
  have hbad : verifyKernelCmdline [⟨kernelCmdlinePCRIndex,
      utf8 "kernel_cmdline: confsec.root=bad".toList, [1]⟩] goodManifest ≠ .ok () := by decide
  have hreplays : ∀ data, (twoLogs h).Replays [⟨kernelCmdlinePCRIndex, data, [1]⟩]
      (cmdlineRegister h) :=
    fun data => replays_singleton rfl ⟨kernelCmdlinePCRIndex, data, [1]⟩
  have hempty : ∀ events, (twoLogs h).Replays events ∅ := fun events k v hk => by
    rw [AList.lookup_empty] at hk
    cases hk
  refine ⟨⟨_, rfl, hreplays _⟩, ⟨_, rfl, hreplays _⟩, fun hacc => ?_,
    accepts_iff.2 ⟨_, rfl, rfl, hgood, hreplays _⟩, accepts_iff.2 ⟨_, rfl, rfl, hgood, hempty _⟩⟩
  obtain ⟨log, hlog, -, hcmd, -⟩ := accepts_iff.1 hacc
  cases hlog
  exact hbad hcmd

/-- A hash of one byte; the verdicts do not depend on it, the digests being the same. -/
def lengthHash : Hash := ⟨1, fun b => Vector.replicate 1 (UInt8.ofNat b.length)⟩

theorem eventLog_trusts_data :
    (twoLogs lengthHash).PieceReplays ⟨.eventLog, [], []⟩ (cmdlineRegister lengthHash) ∧
    (twoLogs lengthHash).PieceReplays ⟨.eventLog, [1], []⟩ (cmdlineRegister lengthHash) ∧
    ¬ (twoLogs lengthHash).Accepts (cmdlineRegister lengthHash) goodManifest ⟨.eventLog, [], []⟩ ∧
    (twoLogs lengthHash).Accepts (cmdlineRegister lengthHash) goodManifest ⟨.eventLog, [1], []⟩ ∧
    (twoLogs lengthHash).Accepts ∅ goodManifest ⟨.eventLog, [1], []⟩ :=
  twoLogs_verdicts lengthHash

end Attest
