import Mathlib.Data.List.AList
import OpenPCC.Go.Outcome

/-!
# Attestation evidence

What a compute node sends for its attestation: a list of typed pieces, each with its data and a
signature. `maybeGetEvidencePieceFromList` is the only way the verifier reads the list; `nil` is
`none`. `PCRValues` are the platform configuration registers sent beside a TPM quote.
-/

namespace Attest

inductive EvidenceType where
  | unspecified
  | certifyRekCreation
  | gceAkCertificate
  | gceAkIntermediateCertificate
  | tpmtPublic
  | sevSnpReport
  | tdxReport
  | nvidiaETA
  | nvidiaCCIntermediateCertificate
  | azureAkCertificate
  | eventLog
  | imageSigstoreBundle
  | tpmQuote
  | tdxCollateral
  | nvidiaSwitchETA
  | nvidiaSwitchIntermediateCertificate
  deriving DecidableEq, Repr

structure SignedEvidencePiece where
  type : EvidenceType
  data : Bytes
  signature : Bytes
  deriving DecidableEq, Repr

abbrev SignedEvidenceList := List SignedEvidencePiece

/-- The first piece of the type. -/
def maybeGetEvidencePieceFromList (t : EvidenceType) (evidence : SignedEvidenceList) :
    Option SignedEvidencePiece :=
  evidence.find? fun piece => piece.type == t

/-- `map[uint32][]byte`: register values by index. -/
abbrev PCRValues := AList fun _ : UInt32 => Bytes

/-- `values[k]`: nil for a key that is not there. -/
def PCRValues.get (values : PCRValues) (k : UInt32) : Bytes := (values.lookup k).getD []

/-- `crypto.Hash`: the algorithms a register's digest can name. -/
inductive HashAlg where
  | sha1 | sha256 | sha384 | sha512
  deriving DecidableEq, Repr

/-- `register.PCR`, an expected measurement register. -/
structure MR where
  idx : Int
  dgst : Bytes
  dgstAlg : HashAlg
  deriving DecidableEq, Repr

/-- The registers of a quote as the event log's replay expects them. -/
def PCRValues.toMRs (values : PCRValues) : List MR :=
  values.entries.map fun e => ⟨e.1.toNat, e.2, .sha256⟩

end Attest
