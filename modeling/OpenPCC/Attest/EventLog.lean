import OpenPCC.Attest.Evidence
import OpenPCC.Cmdline.Parser

/-!
# The event log

`EventLog` checks a node's boot against its image manifest. The event log is a list of
measurements; each event has the register it was extended into, the digest that went into the
register and the data the digest is said to be of. The verifier reads the kernel command line
from the *data* of the events of register 8, and replays the *digests* of each expected register
(`calculateEventLogChecksum`).
-/

namespace Attest

open Go

def kernelCmdlinePCRIndex : UInt32 := 8
def modelHashPCRIndex : Int := 12

/-- The fields of `pb.Event` the verifier reads. -/
structure Event where
  pcrIndex : UInt32
  data : Bytes
  digest : Bytes
  deriving DecidableEq, Repr

structure SecureBootState where
  enabled : Bool
  deriving DecidableEq, Repr

structure FirmwareLogState where
  rawEvents : List Event
  secureBoot : Option SecureBootState
  deriving DecidableEq, Repr

/-- A kernel command line of the manifest; `EventLog` reads its root hash only. -/
structure KernelCmdline where
  confsecRoot : Bytes
  deriving DecidableEq, Repr

structure BuildCustomData where
  kernelCmdlines : List KernelCmdline
  deriving DecidableEq, Repr

structure ImageManifest where
  artifactID : Bytes
  customData : Option BuildCustomData
  deriving DecidableEq, Repr

/-- A hash function with its digest size. -/
structure Hash where
  size : Nat
  sum : Bytes → Vector UInt8 size

/-- What the event-log check calls in other libraries. -/
structure Boot where
  unmarshalFirmwareLogState : Bytes → Except Err FirmwareLogState
  /-- `none`: `!hashAlg.Available()` -/
  hash : HashAlg → Option Hash

/-! ## The kernel command line -/

/-- The string literals of the command-line check. -/
def cmdlineTag : Bytes := utf8 "kernel_cmdline:".toList
def confsecRootKey : Bytes := utf8 "confsec.root".toList

/-- One iteration of the loop over the events, with the variable `verified`. -/
def verifyEvent (root : Bytes) (verified : Bool) (event : Event) : Except Err Bool :=
  if event.pcrIndex ≠ kernelCmdlinePCRIndex then .ok verified
  else if ¬ cmdlineTag <+: event.data then .ok verified
  else
    match Cmdline.parse event.data with
    | .error e => .error (.errorf "failed to parse kernel cmdline: %w" [] e)
    | .ok cmdlineMap =>
      match cmdlineMap.lookup confsecRootKey with
      | none => .error (.new "confsec.root not found in kernel cmdline" [])
      | some confsecRoot =>
        if confsecRoot ≠ root then
          .error (.new "confsec.root does not match image manifest, expected %s, got %s"
            [.str root, .str confsecRoot])
        else .ok true

def verifyKernelCmdline (events : List Event) (imageManifest : ImageManifest) :
    Except Err Unit :=
  match imageManifest.customData with
  | none => .error (.new "no custom data in image manifest" [])
  | some customData =>
    match customData.kernelCmdlines with
    | [] => .error (.new "no kernel cmdlines found in image manifest" [])
    | kernelCmdline :: _ =>
      match events.foldlM (verifyEvent kernelCmdline.confsecRoot) false with
      | .error e => .error e
      | .ok false => .error (.new "confsec.root not found in kernel cmdline" [])
      | .ok true => .ok ()

/-! ## The replay -/

/-- The value of a register after an extension; a register without extensions is `[]` here. -/
def Hash.extend (h : Hash) (checksum digest : Bytes) : Bytes :=
  (h.sum ((if checksum.length ≠ 0 then checksum else List.replicate h.size 0) ++ digest)).toList

/-- One iteration of the replay of the register `registerIndex`. -/
def Hash.replayEvent (h : Hash) (registerIndex : UInt32) (checksum : Bytes) (event : Event) :
    Bytes :=
  if event.pcrIndex ≠ registerIndex then checksum else h.extend checksum event.digest

def calculateEventLogChecksum (hash : Option Hash) (rawEvents : List Event)
    (registerIndex : UInt32) : Bytes :=
  match hash with
  | none => []
  | some h => rawEvents.foldl (h.replayEvent registerIndex) []

/-- The loop over the expected registers. -/
def Boot.verifyRegisters (b : Boot) (rawEvents : List Event) : List MR → Except Err Unit
  | [] => .ok ()
  | pcr :: expectedPcr =>
    if pcr.idx < 0 ∨ pcr.idx > 2 ^ 32 - 1 then
      .error (.new "pcr index %d is out of range for uint32" [.int pcr.idx])
    else if pcr.idx = modelHashPCRIndex then b.verifyRegisters rawEvents expectedPcr
    else
      let checksum := calculateEventLogChecksum (b.hash pcr.dgstAlg) rawEvents
        (UInt32.ofNat pcr.idx.toNat)
      if checksum ≠ pcr.dgst then
        .error (.new "pcr %d does not match, expected %s, got %s"
          [.int pcr.idx, .str (Hex.encodeToString pcr.dgst), .str (Hex.encodeToString checksum)])
      else b.verifyRegisters rawEvents expectedPcr

/-! ## The check -/

def Boot.getRawEventsAndSecureBootState (b : Boot) (evidencePiece : Option SignedEvidencePiece) :
    Outcome (List Event × Option SecureBootState) := do
  let piece ← .deref evidencePiece
  let firmwareLogState ← Outcome.wrap "failed to unmarshal event log: %w" []
    (.ofExcept (b.unmarshalFirmwareLogState piece.data))
  return (firmwareLogState.rawEvents, firmwareLogState.secureBoot)

def Boot.eventLog (b : Boot) (expectedPcr : List MR)
    (eventLogEvidence : Option SignedEvidencePiece) (imageManifest : ImageManifest) :
    Outcome Unit := do
  let (rawEvents, secureBoot) ← Outcome.wrap "failed to get raw events: %w" []
    (b.getRawEventsAndSecureBootState eventLogEvidence)
  let secureBoot ← .deref secureBoot
  .check secureBoot.enabled
    (.new "failed to verify event log: secure boot is not enabled" [])
  Outcome.wrap "failed to verify kernel cmdline: %w" []
    (.ofExcept (verifyKernelCmdline rawEvents imageManifest))
  .ofExcept (b.verifyRegisters rawEvents expectedPcr)

/-! ## What is measured -/

/-- The events replay to the registers of a quote. -/
def Boot.Replays (b : Boot) (rawEvents : List Event) (values : PCRValues) : Prop :=
  ∀ k v, values.lookup k = some v → (k.toNat : Int) ≠ modelHashPCRIndex →
    calculateEventLogChecksum (b.hash .sha256) rawEvents k = v

/-- The piece is a log that replays to the registers of a quote. -/
def Boot.PieceReplays (b : Boot) (piece : SignedEvidencePiece) (values : PCRValues) : Prop :=
  ∃ log, b.unmarshalFirmwareLogState piece.data = .ok log ∧ b.Replays log.rawEvents values

/-- The verdict on a log, for the registers of a quote. -/
def Boot.Accepts (b : Boot) (values : PCRValues) (m : ImageManifest)
    (piece : SignedEvidencePiece) : Prop :=
  b.eventLog values.toMRs (some piece) m = .ok ()

/-- The manifest has a kernel command line with a root hash that is a text. -/
def ImageManifest.HasRoot (m : ImageManifest) : Prop :=
  ∃ customData kernelCmdline rest, m.customData = some customData ∧
    customData.kernelCmdlines = kernelCmdline :: rest ∧ IsText kernelCmdline.confsecRoot

end Attest
