import Mathlib.Data.List.Sort
import Mathlib.Data.Finset.Sort
import OpenPCC.Attest.Evidence

/-!
# The TPM quote

`TPMQuote` reads a quote signed by the attestation key and the register values sent beside it,
which nobody signed. It accepts them when the hash of the values, joined in ascending order of
their keys, is the digest in the quote, and returns them.

The TPM library, the protobuf decoder and the cryptographic functions are the fields of `Tpm`.
The second half states what a TPM is: `Registers` hold 32 bytes each, a quote names the
registers it selects and the hash of their values (`Genuine`), and only quotes of the TPM carry
a valid signature of its attestation key (`Unforgeable`).
-/

namespace Attest

open Go

/-- `rsa.PublicKey`. -/
structure RsaPublicKey where
  n : Nat
  e : Int
  deriving DecidableEq, Repr

/-- `tpm2.TPMSQuoteInfo`: the selected registers and the digest of their values. -/
structure QuoteInfo where
  pcrSelect : Finset Nat
  pcrDigest : Bytes

/-- The message `TPMQuoteAttestation`. -/
structure TPMQuoteAttestation where
  tmpstAttestQuote : Bytes
  pcrValues : Option PCRValues

/-- What the quote and key-creation checks call in other libraries. -/
structure Tpm where
  TPMSAttest : Type
  TPMTSignature : Type
  sha256 : Bytes → Vector UInt8 32
  verifyPKCS1v15 : RsaPublicKey → Vector UInt8 32 → Bytes → Except Err Unit
  unmarshalAttest : Bytes → Except Err TPMSAttest
  marshalAttest : TPMSAttest → Bytes
  unmarshalSignature : Bytes → Except Err TPMTSignature
  /-- `sig.Signature.RSASSA()`: the signature's bytes -/
  rsassa : TPMTSignature → Except Err Bytes
  /-- `tpms.Attested.Quote()` -/
  quote : TPMSAttest → Except Err QuoteInfo
  /-- `TPMQuoteAttestation.UnmarshalBinary` -/
  unmarshalQuoteAttestation : Bytes → Except Err TPMQuoteAttestation
  /-- `safecast.ToUint32` -/
  toUint32 : Nat → Except Err UInt32
  toUint32_of_lt : ∀ {n}, n < 2 ^ 32 → toUint32 n = .ok (UInt32.ofNat n)

/-- `[32]byte(b)`: panics on a shorter slice, drops what is past the first 32 bytes. -/
def toArray32 (b : Bytes) : Outcome (Vector UInt8 32) :=
  if h : 32 ≤ b.length then .ok ⟨(b.take 32).toArray, by simp [h]⟩ else .panic

/-- The keys of the map, ascending. -/
def orderedPCRIndices (values : PCRValues) : List Nat :=
  (values.keys.map UInt32.toNat).insertionSort (· ≤ ·)

/-- The first loop: `concatenatedPCRs` after the keys `ks`. -/
def Tpm.concatPCRs (t : Tpm) (values : PCRValues) : List Nat → Bytes → Except Err Bytes
  | [], concatenatedPCRs => .ok concatenatedPCRs
  | k :: ks, concatenatedPCRs => do
    let kSafe ← t.toUint32 k
    t.concatPCRs values ks (concatenatedPCRs ++ values.get kSafe)

/-- The second loop: `pcrMap` after the keys `ks`. -/
def Tpm.copyPCRs (t : Tpm) (values : PCRValues) : List Nat → PCRValues → Except Err PCRValues
  | [], pcrMap => .ok pcrMap
  | k :: ks, pcrMap => do
    let kUint ← t.toUint32 k
    t.copyPCRs values ks (pcrMap.insert kUint (values.get kUint))

/-- The checks on the signed quote itself: its decoding and its signature. -/
def Tpm.verifyQuote (t : Tpm) (attestationKey : RsaPublicKey) (piece : SignedEvidencePiece) :
    Outcome (TPMQuoteAttestation × t.TPMSAttest) := do
  let tpmQuoteProto ← .ofExcept (t.unmarshalQuoteAttestation piece.data)
  let tpms ← .ofExcept (t.unmarshalAttest tpmQuoteProto.tmpstAttestQuote)
  let sig ← .ofExcept (t.unmarshalSignature piece.signature)
  let attestHash := t.sha256 (t.marshalAttest tpms)
  let rsassa ← .ofExcept (t.rsassa sig)
  .ofExcept (t.verifyPKCS1v15 attestationKey attestHash rsassa)
  return (tpmQuoteProto, tpms)

def Tpm.tpmQuote (t : Tpm) (attestationKey : RsaPublicKey) (piece : SignedEvidencePiece) :
    Outcome PCRValues := do
  let (tpmQuoteProto, tpms) ← t.verifyQuote attestationKey piece
  let values ← .deref tpmQuoteProto.pcrValues
  let ordered := orderedPCRIndices values
  let concatenatedPCRs ← .ofExcept (t.concatPCRs values ordered [])
  let expectedPCRDigest := t.sha256 concatenatedPCRs
  let attestedQuote ← .ofExcept (t.quote tpms)
  let digest ← toArray32 attestedQuote.pcrDigest
  .check (expectedPCRDigest == digest)
    (.new "plaintext TPMQuoteAttestation PCR values don't match the signed data" [])
  .ofExcept (t.copyPCRs values ordered ∅)

/-! ## What a quote says -/

/-- The contents of a TPM's registers. -/
abbrev Registers := Nat → Vector UInt8 32

/-- What the TPM hashes: the selected registers' values in ascending order. -/
def quotedBytes (R : Registers) (select : Finset Nat) : Bytes :=
  (select.sort (· ≤ ·)).flatMap fun k => (R k).toList

/-- A quote the TPM made: its digest is of the registers it selects. No other byte string has
that digest. -/
structure Genuine (sha256 : Bytes → Vector UInt8 32) (R : Registers) (q : QuoteInfo) : Prop where
  digest_eq : q.pcrDigest = (sha256 (quotedBytes R q.pcrSelect)).toList
  binding : ∀ b, sha256 b = sha256 (quotedBytes R q.pcrSelect) → b = quotedBytes R q.pcrSelect

/-- Every quote with a valid signature of the attestation key was made by the TPM. -/
def Tpm.Unforgeable (t : Tpm) (attestationKey : RsaPublicKey) (R : Registers) : Prop :=
  ∀ tpms rsassa q,
    t.verifyPKCS1v15 attestationKey (t.sha256 (t.marshalAttest tpms)) rsassa = .ok () →
    t.quote tpms = .ok q → Genuine t.sha256 R q

/-- The piece carries the quote `q`, signed, and the map `values` beside it. -/
def Tpm.Sent (t : Tpm) (attestationKey : RsaPublicKey) (piece : SignedEvidencePiece)
    (values : PCRValues) (q : QuoteInfo) : Prop :=
  ∃ tpmQuoteProto tpms, t.verifyQuote attestationKey piece = .ok (tpmQuoteProto, tpms) ∧
    tpmQuoteProto.pcrValues = some values ∧ t.quote tpms = .ok q

/-- The registers the map names. -/
def PCRValues.indices (values : PCRValues) : Finset Nat :=
  (values.keys.map UInt32.toNat).toFinset

/-- `values` holds the registers of `select`, all of them and nothing else, with their
contents. -/
structure PCRValues.Exact (values : PCRValues) (R : Registers) (select : Finset Nat) : Prop where
  indices_eq : values.indices = select
  lookup_eq : ∀ k ∈ values, values.lookup k = some (R k.toNat).toList

/-- The values of the map, joined in ascending order of their keys. -/
def PCRValues.joined (values : PCRValues) : Bytes :=
  (orderedPCRIndices values).flatMap fun k => values.get (UInt32.ofNat k)

/-- The map names the registers of `select`, and each value has the width of a register. -/
structure PCRValues.Labelled (values : PCRValues) (select : Finset Nat) : Prop where
  indices_eq : values.indices = select
  width : ∀ k ∈ values, (values.get k).length = 32

end Attest
