import OpenPCC.Attest.Libs
import OpenPCC.Go.Base64

/-!
# Verification of a compute node

`VerifyComputeNode` goes through the evidence in eight steps: the report of the trusted execution
environment, the attestation key, the creation of the request encryption key (REK), the GPU
tokens, the quoted registers, the image manifest, the event log, and the REK itself with the
register policy it is sealed to. Functions that cannot panic return an `Except`, the others an
`Outcome`. The function is written in stages, so that a later stage can be stated about the
evidence that reaches it.
-/

namespace Attest

open Go

structure ComputeData where
  kem : Nat
  kdf : Nat
  aead : Nat
  publicKey : Bytes
  deriving DecidableEq, Repr

namespace Libs

variable (L : Libs)

/-! ## Certificates -/

/-- A certificate from an embedded PEM file. -/
def pemCertificate (noBlock : Err) (badCert : Err → Err) (pem : Bytes) :
    Except Err Certificate :=
  match L.pemDecode pem with
  | none => .error noBlock
  | some block => (L.parseCertificate block).mapError badCert

def getGCEEKAKRootCert : Except Err Certificate :=
  L.pemCertificate (.new "failed to decode PEM block" [])
    (.errorf "failed to parse certificate: %w" []) L.certs.gceEKAKRootCert

def getTDXRootCert : Except Err Certificate :=
  L.pemCertificate (.new "failed to decode PEM block" [])
    (.errorf "failed to parse certificate: %w" []) L.certs.tdxRootCertBytes

def oidExtensionSubjectAltName : OID := [2, 5, 29, 17]
def cloudComputeInstanceIdentifierOID : OID := [1, 3, 6, 1, 4, 1, 11129, 2, 1, 21]

def verifyAKCert (akCert : Certificate) (trustedRootCerts intermediateCerts : List Certificate) :
    Except Err Unit :=
  if trustedRootCerts = [] then
    .error (.new "failed to validate AK Cert: received no trusted root certs" [])
  else
    -- the subject alternative name is handled by the caller
    let exts := akCert.unhandledCriticalExtensions.filter (· ≠ oidExtensionSubjectAltName)
    (L.verifyCertificate ⟨trustedRootCerts, intermediateCerts⟩
      { akCert with unhandledCriticalExtensions := exts }).mapError
      (.errorf "certificate did not chain to a trusted root: %w" [])

def verifyIntermediateCert (cert : Certificate) (trustedRootCerts : List Certificate) :
    Except Err Unit :=
  if trustedRootCerts = [] then
    .error (.new "failed to validate AK Cert: received no trusted root certs" [])
  else
    (L.verifyCertificate ⟨trustedRootCerts, []⟩ cert).mapError
      (.errorf "certificate did not chain to a trusted root: %w" [])

def getInstanceInfo (cert : Certificate) : Except Err GceInstanceInfo :=
  let rawInfo := ((cert.extensions.find? (·.1 = cloudComputeInstanceIdentifierOID)).map
    (·.2)).getD []
  if rawInfo = [] then .error (.new "GCE Instance Information Extension not found" [])
  else do
    let info ← (L.unmarshalInstanceInfo rawInfo).mapError
      (.errorf "failed to parse GCE Instance Information Extension: %w" [])
    if info.projectNumber < 0 ∨ info.instanceID < 0 ∨ info.securityVersion < 0 then
      .error (.new "negative integer fields found in GCE Instance Information Extension" [])
    else if ¬ info.isProduction then
      .error (.new "GCE Instance Information Extension is not production" [])
    else .ok info

def gceAkIntermediateCertificate (piece : SignedEvidencePiece) : Except Err Certificate := do
  let akIntermediateCert ← (L.parseCertificate piece.data).mapError
    (.errorf "failed to parse GCE AK Certificate: %w" [])
  let rootCert ← L.getGCEEKAKRootCert.mapError
    (.errorf "failed to get GCE EK AK Root Certificate: %w" [])
  (L.verifyIntermediateCert akIntermediateCert [rootCert]).mapError
    (.errorf "failed to verify GCE AK Certificate: %w" [])
  return akIntermediateCert

def gceAkCertificate (intermediateCertificate : Certificate) (piece : SignedEvidencePiece) :
    Except Err (Certificate × GceInstanceInfo) := do
  let akCert ← (L.parseCertificate piece.data).mapError
    (.errorf "failed to parse GCE AK Certificate: %w" [])
  let rootCert ← L.getGCEEKAKRootCert.mapError
    (.errorf "failed to get GCE AK Root Certificate: %w" [])
  (L.verifyAKCert akCert [rootCert] [intermediateCertificate]).mapError
    (.errorf "failed to verify GCE AK Certificate: %w" [])
  let info ← (L.getInstanceInfo akCert).mapError
    (.errorf "failed to get GCE Instance Info: %w" [])
  match akCert.publicKey with
  | .rsa _ => .ok (akCert, info)
  | _ => .error (.new "failed to get RSA Public Key from GCE AK Certificate" [])

/-- The loop over the embedded intermediate certificates, from index `i` on. -/
def azureIntermediateCerts : Nat → List Bytes → Except Err (List Certificate)
  | _, [] => .ok []
  | i, certPEM :: certPEMs => do
    let cert ← L.pemCertificate
      (.new "failed to parse PEM block containing intermediate cert (index %d)" [.int i])
      (fun _ => .new "failed to parse intermediate cert (index %d)" [.int i]) certPEM
    return cert :: (← azureIntermediateCerts (i + 1) certPEMs)

def azureAkCertificate (piece : SignedEvidencePiece) : Except Err Certificate := do
  let intermediateCerts ← L.azureIntermediateCerts 0 L.certs.azureTPMIntermediateCertPEMs
  let rootCert ← L.pemCertificate (.new "failed to parse PEM block containing root cert" [])
    (fun _ => .new "failed to parse root cert" []) L.certs.azureTPMRootCertPEM
  let akCert ← (L.parseCertificate piece.data).mapError
    (.errorf "failed to parse Azure AK Certificate from evidence: %w" [])
  (L.verifyAKCert akCert [rootCert] intermediateCerts).mapError
    (.errorf "failed to verify Azure AK Certificate: %w" [])
  return akCert

/-- The intermediate certificate of an NVIDIA token. -/
def getIntermediateCert (piece : SignedEvidencePiece) : Except Err Certificate := do
  let intermediateCert ← (L.parseCertificate piece.data).mapError
    (.errorf "failed to parse intermediate certificate: %w" [])
  let rootCert ← L.pemCertificate
    (.new "failed to parse PEM block containing the root certificate" [])
    (.errorf "failed to parse root certificate: %w" []) L.certs.nrasRootCert
  (L.verifyIntermediateCert intermediateCert [rootCert]).mapError
    (.errorf "failed to verify Nvidia Intermediate Certificate: %w" [])
  return intermediateCert

/-! ## Reports of the trusted execution environment -/

def sevSnpReport (piece : SignedEvidencePiece) : Except Err Unit := do
  let attestation ← (L.unmarshalSnpAttestation piece.data).mapError
    (.errorf "failed to parse SEV-SNP report (%v): %w" [.str piece.data])
  (L.snpAttestation attestation).mapError (.errorf "failed to verify SEV-SNP report: %w" [])

/-- A certificate of the collateral, nil where the message has none. -/
def collateralCert (name : String) (rawCert : Bytes) : Except Err (Option Certificate) :=
  if rawCert.length > 0 then
    match L.parseCertificate rawCert with
    | .ok cert => .ok (some cert)
    | .error e => .error (.errorf ("failed to parse " ++ name ++ ": %w") [] e)
  else .ok none

/-- `TDXCollateral.UnmarshalBinary`. -/
def unmarshalCollateral (data : Bytes) : Except Err TDXCollateral := do
  let cbProto ← L.unmarshalTDXCollateral data
  let pckRoot ← L.collateralCert "PckCrlRootCertificate" cbProto.pckCrlRootCertificate
  let pckInt ← L.collateralCert "PckCrlIntermediateCertificate"
    cbProto.pckCrlIntermediateCertificate
  let qeRoot ← L.collateralCert "QeRootCertificate" cbProto.qeRootCertificate
  let qeInt ← L.collateralCert "QeIntermediateCertificate" cbProto.qeIntermediateCertificate
  let tcbRoot ← L.collateralCert "TcbRootCertificate" cbProto.tcbRootCertificate
  let tcbInt ← L.collateralCert "TcbIntermediateCertificate" cbProto.tcbIntermediateCertificate
  return ⟨cbProto, pckRoot, pckInt, qeRoot, qeInt, tcbRoot, tcbInt⟩

def certificateToPEMString (cert : Certificate) : Bytes := L.pemEncodeToMemory cert.raw

def tdxReport (rootCert : Certificate) (collateral : TDXCollateral)
    (piece : SignedEvidencePiece) : Outcome Unit := do
  let report ← Outcome.wrap "failed to convert quote to proto: %w" []
    (.ofExcept (L.quoteToProto piece.data))
  let (options, err) := L.rootOfTrustToOptions (L.certificateToPEMString rootCert)
  -- the options are assigned to before the error is looked at
  let options ← .deref options
  match err with
  | some e => .err (.errorf "failed to convert root of trust to options: %w" [] e)
  | none =>
    Outcome.wrap "failed to verify TDX quote: %w" []
      (.ofExcept (L.tdxQuote report options collateral))

/-- Step 1: exactly one report of a trusted execution environment. -/
def verifyTee (evidence : SignedEvidenceList) : Outcome Unit :=
  match maybeGetEvidencePieceFromList .sevSnpReport evidence,
      maybeGetEvidencePieceFromList .tdxReport evidence with
  | none, none => .err (.new "expected exactly one TEE evidence piece, got %d" [.int 0])
  | some _, some _ => .err (.new "expected exactly one TEE evidence piece, got %d" [.int 2])
  | some sevSnpTeeEvidence, none =>
    Outcome.wrap "failed to verify SEVSNP report: %w" []
      (.ofExcept (L.sevSnpReport sevSnpTeeEvidence))
  | none, some tdxTeeEvidence => do
    let rootCert ← .ofExcept L.getTDXRootCert
    let collateralPiece ← Outcome.orErr
      (.new "insufficient evidence for tdx collateral provided" [])
      (maybeGetEvidencePieceFromList .tdxCollateral evidence)
    let tdxCollateral ← .ofExcept (L.unmarshalCollateral collateralPiece.data)
    Outcome.wrap "failed to verify TDX report: %w" []
      (L.tdxReport rootCert tdxCollateral tdxTeeEvidence)

/-! ## The attestation key and the request encryption key -/

/-- Step 2: the attestation key, from the certificates of exactly one cloud. -/
def verifyAk (evidence : SignedEvidenceList) : Except Err RsaPublicKey :=
  match maybeGetEvidencePieceFromList .gceAkIntermediateCertificate evidence,
      maybeGetEvidencePieceFromList .azureAkCertificate evidence with
  | some intermediatePiece, none => do
    let akIntermediateCertificate ← (L.gceAkIntermediateCertificate intermediatePiece).mapError
      (.errorf "failed to verify GCE AK Intermediate Certificate: %w" [])
    match maybeGetEvidencePieceFromList .gceAkCertificate evidence with
    | none => .error (.new "insufficient evidence for TPM attestation key provided" [])
    | some akPiece => do
      let (akCertificate, _) ← L.gceAkCertificate akIntermediateCertificate akPiece
      match akCertificate.publicKey with
      | .rsa key => .ok key
      | _ => .error (.new "not able to derive public key from certificate" [])
  | none, some azurePiece => do
    let akCertificate ← (L.azureAkCertificate azurePiece).mapError
      (.errorf "failed to verify Azure AK Certificate: %w" [])
    match akCertificate.publicKey with
    | .rsa key => .ok key
    | _ => .error (.new "not able to derive public key from Azure AK certificate" [])
  | _, _ => .error (.new "insufficient evidence for TPM attestation key provided" [])

def rekCreation (attestationKey : RsaPublicKey) (piece : SignedEvidencePiece) :
    Except Err L.TPM2BAttest := do
  let info ← L.unmarshal2BAttest piece.data
  let infoContents ← L.contents info
  let _ ← L.creation infoContents
  let sig ← L.tpm.unmarshalSignature piece.signature
  let attestHash := L.tpm.sha256 (L.tpm.marshalAttest infoContents)
  let rsassa ← L.tpm.rsassa sig
  L.tpm.verifyPKCS1v15 attestationKey attestHash rsassa
  return info

/-- Step 3: the name of the key whose creation the attestation key certifies. -/
def verifyRekCreation (akPubKey : RsaPublicKey) (evidence : SignedEvidenceList) :
    Except Err Bytes :=
  match maybeGetEvidencePieceFromList .certifyRekCreation evidence with
  | none => .error (.new "no evidence for REK creation provided" [])
  | some piece => do
    let certifyCreationResponse ← (L.rekCreation akPubKey piece).mapError
      (.errorf "failed to verify REK creation: %w" [])
    let tpmuAttest ← (L.contents certifyCreationResponse).mapError
      (.errorf "failed to parse REK creation response: %w" [])
    (L.creation tpmuAttest).mapError (.errorf "failed to parse REK creation info: %w" [])

/-! ## GPU tokens -/

def verifyJWT (intermediateCert : Certificate) (signedToken : Bytes) : Except Err Bool :=
  match intermediateCert.publicKey with
  | .ecdsa publicKey =>
    (L.parseJWT publicKey signedToken).mapError (.errorf "failed to parse the JWT: %w" [])
  | _ => .error (.new "failed to get public key from intermediate certificate" [])

/-- Step 4 for the token `eta`, if there is one: it is signed under the certificate `cert`. -/
def verifyEta (eta cert : EvidenceType) (evidence : SignedEvidenceList) : Except Err Unit :=
  match maybeGetEvidencePieceFromList eta evidence with
  | none => .ok ()
  | some etaEvidence =>
    match maybeGetEvidencePieceFromList cert evidence with
    | none => .error (.new "no evidence for nvidia cc intermediate certificate provided" [])
    | some certEvidence => do
      let intermediateCert ← (L.getIntermediateCert certEvidence).mapError
        (.errorf "failed to get intermediate certificate: %w" [])
      let encodedSig := L.base64RawURL etaEvidence.signature
      let jwtTokenString := etaEvidence.data ++ utf8 ['.'] ++ encodedSig
      let isMapClaims ← (L.verifyJWT intermediateCert jwtTokenString).mapError
        (.errorf "failed to verify nvidia eta: %w" [])
      if isMapClaims then .ok () else .error (.new "failed to get claims from token" [])

def verifyGpu : SignedEvidenceList → Except Err Unit :=
  L.verifyEta .nvidiaETA .nvidiaCCIntermediateCertificate

def verifyNvSwitch : SignedEvidenceList → Except Err Unit :=
  L.verifyEta .nvidiaSwitchETA .nvidiaSwitchIntermediateCertificate

/-! ## The request encryption key's policy and point -/

def pcrDigestFromDesiredPcrValuesMap (pcrValues : PCRValues) : Vector UInt8 32 :=
  L.tpm.sha256 pcrValues.joined

def getSoftwarePCRPolicyDigest (pcrValues : PCRValues) : Except Err Bytes := do
  L.newPolicyCalculator
  let pcrSelection := L.pcrs (orderedPCRIndices pcrValues)
  let pcrHash := L.pcrDigestFromDesiredPcrValuesMap pcrValues
  L.policyPCR pcrSelection pcrHash

def checkTpmt (certifiedName data : Bytes) (desiredPcrValues : PCRValues) : Except Err Unit := do
  let tpmtPublic ← (L.unmarshalPublic data).mapError
    (.errorf "failed to unmarshal TPMT public: %w" [])
  let expectedName ← (L.objectName tpmtPublic).mapError
    (.errorf "failed to get object name: %w" [])
  if expectedName ≠ certifiedName then
    .error (.new "certified name does not match expected name" [])
  else do
    let desired ← (L.getSoftwarePCRPolicyDigest desiredPcrValues).mapError
      (.errorf "failed to get software PCR policy digest: %w" [])
    if tpmtPublic.authPolicy ≠ desired then
      .error (.new "attested key does not enforce desired PCR values, expected %x, got %x"
        [.str desired, .str tpmtPublic.authPolicy])
    else .ok ()

def tpmt (certifiedName : Bytes) (piece : Option SignedEvidencePiece)
    (desiredPcrValues : PCRValues) : Outcome Unit := do
  let piece ← .deref piece
  .ofExcept (L.checkTpmt certifiedName piece.data desiredPcrValues)

/-- `big.NewInt(0).SetBytes(b).Bytes()`. -/
def bigIntBytes (b : Bytes) : Bytes := b.dropWhile (· == 0)

/-- `big.NewInt(0).SetBytes(b)`. -/
def bigInt (b : Bytes) : Nat := b.foldl (fun n d => 256 * n + d.toNat) 0

def rsaPub (exponent : Nat) (n : Bytes) : RsaPublicKey :=
  ⟨bigInt n, if exponent = 0 then 65537 else exponent⟩

def ecdsaPub (curveID : CurveID) (point : Bytes × Bytes) : Except Err EcdsaPublicKey :=
  match curveID with
  | .nistP256 => .ok ⟨.p256, bigIntBytes point.1, bigIntBytes point.2⟩
  | .nistP384 => .ok ⟨.p384, bigIntBytes point.1, bigIntBytes point.2⟩
  | .nistP521 => .ok ⟨.p521, bigIntBytes point.1, bigIntBytes point.2⟩
  | .other id => .error (.new "unknown curve: %v" [.int id])

/-- `tpm.Pub`. -/
def pub (area : TPMTPublic) : Except Err PublicKey :=
  match area.type with
  | .rsa => do
    let parameters ← area.rsaDetail.mapError
      fun _ => .new "failed to retrieve the RSA parameters" []
    let n ← area.rsaUnique.mapError
      fun _ => .new "failed to parse and retrieve the RSA modulus" []
    return .rsa (rsaPub parameters n)
  | .ecc => do
    let parameters ← area.eccDetail.mapError
      fun _ => .new "failed to retrieve the ECC parameters" []
    let point ← area.eccUnique.mapError
      fun _ => .new "failed to parse and retrieve the ECC point" []
    let key ← (ecdsaPub parameters point).mapError
      fun _ => .new "failed to retrieve the ECC public key" []
    return .ecdsa key
  | .other id => .error (.new "unsupported public key type: %v" [.int id])

/-- The P256 key of a TPM public area. -/
def p256Key (tpmpt : TPMTPublic) : Except Err EcdsaPublicKey := do
  let pubKey ← (pub tpmpt).mapError
    (.errorf "failed to convert tpmpt to crypto public key: %w" [])
  match pubKey with
  | .ecdsa eccPubKey =>
    if eccPubKey.curve ≠ .p256 then
      .error (.new "requires ECC key with curve P256 and hash algorithm SHA256, got curve %v"
        [.str eccPubKey.curve.name])
    else .ok eccPubKey
  | k => .error (.new "expected ECDSA public key, got %T" [.str k.typeName])

/-- `copy(dst[end-len(src):end], src)`: panics if `src` does not fit before `end`. -/
def copyRight (dst : Bytes) (last : Nat) (src : Bytes) : Outcome Bytes :=
  if src.length ≤ last then .ok (dst.take (last - src.length) ++ src ++ dst.drop last)
  else .panic

/-- `hpke.Pub`: the point in uncompressed form, as a key of the encapsulation mechanism. -/
def hpkePub (tpmpt : TPMTPublic) : Outcome L.KemPublicKey := do
  let eccPubKey ← .ofExcept (p256Key tpmpt)
  let uncompressed := (0x04 : UInt8) :: List.replicate 64 0
  let uncompressed ← copyRight uncompressed 33 eccPubKey.x
  let uncompressed ← copyRight uncompressed 65 eccPubKey.y
  Outcome.wrap "failed to unmarshal tpm key (x: %v y: %v) to kem.PublicKey: %w"
    [.str eccPubKey.x, .str eccPubKey.y] (.ofExcept (L.unmarshalBinaryPublicKey uncompressed))

/-! ## The stages -/

/-- Steps 1 to 4: the attestation key and the name of the REK. -/
def attested (evidence : SignedEvidenceList) : Outcome (RsaPublicKey × Bytes) := do
  .check (!evidence.isEmpty) (.new "no evidence provided" [])
  L.verifyTee evidence
  let akPubKey ← .ofExcept (L.verifyAk evidence)
  let objectName ← .ofExcept (L.verifyRekCreation akPubKey evidence)
  .ofExcept (L.verifyGpu evidence)
  .ofExcept (L.verifyNvSwitch evidence)
  return (akPubKey, objectName)

/-- Step 5: the quoted registers. -/
def quoted (evidence : SignedEvidenceList) : Outcome (Bytes × PCRValues) := do
  let (akPubKey, objectName) ← L.attested evidence
  let tpmQuote ← Outcome.orErr (.new "no tpm quote provided" [])
    (maybeGetEvidencePieceFromList .tpmQuote evidence)
  let validatedPCRValues ← Outcome.wrap "failed to validate tpm quote: %w" []
    (L.tpm.tpmQuote akPubKey tpmQuote)
  return (objectName, validatedPCRValues)

def imageManifestPredicateType : Bytes :=
  utf8 "https://confident.security/v2/image-manifest".toList

def parseImageManifestFromPredicate (predicate : Predicate) : Except Err ImageManifest :=
  match predicate.lookup (utf8 "imageManifest".toList) with
  | none => .error (.new "missing image manifest predicate entry" [])
  | some (.other v) => .error (.new "image manifest should be a string, is %#v" [.str v])
  | some (.string imageManifestBase64) => do
    let jsonBytes ← (Base64.decodeString imageManifestBase64).mapError
      (.errorf "failed to base64 decode image manifest: %w" [])
    (L.unmarshalImageManifest jsonBytes).mapError
      (.errorf "failed to unmarshal image manifest: %w" [])

/-- `ToImageManifest`; `none` is the nil pointer, which is not valid. -/
def toImageManifest (statement : Option ManifestStatement) : Except Err ImageManifest := do
  (Transparency.Statement.validate L.packages statement).mapError
    (.errorf "invalid statement: %w" [])
  match statement with
  | none => .error Transparency.nilStatement
  | some statement =>
    if statement.predicateType ≠ imageManifestPredicateType then
      .error (.new "invalid predicate type. want %s, got %s"
        [.str imageManifestPredicateType, .str statement.predicateType])
    else L.parseImageManifestFromPredicate statement.predicate

def verifyImageManifestBundle (b : Bytes) : Except Err (Option ManifestStatement) :=
  L.verifyStatementWithProcessor b fun s => do
    let imageManifest ← (L.toImageManifest s).mapError
      (.errorf "failed to parse image manifest: %w" [])
    if imageManifest.customData = none then .error (.new "no custom data in image manifest" [])
    else return imageManifest.artifactID

def imageSigstoreBundle (piece : SignedEvidencePiece) : Except Err ImageManifest := do
  let statement ← (L.verifyImageManifestBundle piece.data).mapError
    (.errorf "failed to verify statement integrity: %w" [])
  L.toImageManifest statement

/-- Step 6: the image manifest. -/
def manifested (evidence : SignedEvidenceList) :
    Outcome (Bytes × PCRValues × ImageManifest) := do
  let (objectName, validatedPCRValues) ← L.quoted evidence
  let bundle ← Outcome.orErr (.new "no image sigstore bundle provided" [])
    (maybeGetEvidencePieceFromList .imageSigstoreBundle evidence)
  let imageManifest ← Outcome.wrap "failed to validate image sigstore bundle: %w" []
    (.ofExcept (L.imageSigstoreBundle bundle))
  return (objectName, validatedPCRValues, imageManifest)

/-- Step 7: the event log. -/
def booted (evidence : SignedEvidenceList) : Outcome (Bytes × PCRValues) := do
  let (objectName, validatedPCRValues, imageManifest) ← L.manifested evidence
  Outcome.wrap "failed to validate event log: %w" []
    (L.boot.eventLog validatedPCRValues.toMRs
      (maybeGetEvidencePieceFromList .eventLog evidence) imageManifest)
  return (objectName, validatedPCRValues)

/-- Step 8, first half: the REK, sealed to the attested registers. -/
def sealedKey (evidence : SignedEvidenceList) : Outcome TPMTPublic := do
  let (objectName, validatedPCRValues) ← L.booted evidence
  let tpmtPublicEvidence := maybeGetEvidencePieceFromList .tpmtPublic evidence
  Outcome.wrap "failed to verify TPMT public key: %w" []
    (L.tpmt objectName tpmtPublicEvidence validatedPCRValues)
  let piece ← .deref tpmtPublicEvidence
  Outcome.wrap "failed to unmarshal TPMT public key: %w" []
    (.ofExcept (L.unmarshalPublic piece.data))

def verifyComputeNode (evidence : SignedEvidenceList) : Outcome ComputeData := do
  let tpmtPublic ← L.sealedKey evidence
  let rekECCPublicKey ← Outcome.wrap "failed to cast rek public key to ECC: %w" []
    (L.hpkePub tpmtPublic)
  let nodePubKeyB ← Outcome.wrap "failed to marshal public key to bytes: %w" []
    (.ofExcept (L.marshalKemPublicKey rekECCPublicKey))
  -- KEM_P256_HKDF_SHA256, KDF_HKDF_SHA256, AEAD_AES128GCM
  return ⟨0x10, 0x01, 0x01, nodePubKeyB⟩

end Libs

/-! ## Missing pieces and missing parts -/

def Has (evidence : SignedEvidenceList) (t : EvidenceType) : Prop :=
  (maybeGetEvidencePieceFromList t evidence).isSome

instance (evidence : SignedEvidenceList) (t : EvidenceType) : Decidable (Has evidence t) :=
  inferInstanceAs (Decidable (_ = true))

/-- All required pieces are there. -/
structure Complete (evidence : SignedEvidenceList) : Prop where
  tee : Has evidence .sevSnpReport ∨ Has evidence .tdxReport
  ak : Has evidence .azureAkCertificate ∨
    Has evidence .gceAkIntermediateCertificate ∧ Has evidence .gceAkCertificate
  rekCreation : Has evidence .certifyRekCreation
  tpmQuote : Has evidence .tpmQuote
  imageSigstoreBundle : Has evidence .imageSigstoreBundle
  eventLog : Has evidence .eventLog
  tpmtPublic : Has evidence .tpmtPublic

/-- Where a TDX report is checked, the library returns options for the embedded root. -/
def Libs.HasTdxOptions (L : Libs) (evidence : SignedEvidenceList) : Prop :=
  ∀ tdx rootCert collateralPiece collateral report,
    maybeGetEvidencePieceFromList .sevSnpReport evidence = none →
    maybeGetEvidencePieceFromList .tdxReport evidence = some tdx →
    L.getTDXRootCert = .ok rootCert →
    maybeGetEvidencePieceFromList .tdxCollateral evidence = some collateralPiece →
    L.unmarshalCollateral collateralPiece.data = .ok collateral →
    L.quoteToProto tdx.data = .ok report →
    (L.rootOfTrustToOptions (L.certificateToPEMString rootCert)).1.isSome

/-- A quote that is reached and signed has register values beside it and a digest of at least
32 bytes in it. -/
def Libs.HasQuoteParts (L : Libs) (evidence : SignedEvidenceList) : Prop :=
  ∀ akPubKey objectName piece tpmQuoteProto tpms,
    L.attested evidence = .ok (akPubKey, objectName) →
    maybeGetEvidencePieceFromList .tpmQuote evidence = some piece →
    L.tpm.verifyQuote akPubKey piece = .ok (tpmQuoteProto, tpms) →
    tpmQuoteProto.pcrValues.isSome ∧ ∀ q, L.tpm.quote tpms = .ok q → 32 ≤ q.pcrDigest.length

/-- If the event log's step is reached, there is a log, with a secure-boot state in it. -/
def Libs.HasEventLog (L : Libs) (evidence : SignedEvidenceList) : Prop :=
  ∀ s, L.manifested evidence = .ok s →
    ∃ piece, maybeGetEvidencePieceFromList .eventLog evidence = some piece ∧
      ∀ log, L.boot.unmarshalFirmwareLogState piece.data = .ok log → log.secureBoot.isSome

/-- The parts that are used without a check are there, and have the sizes assumed, in every piece
that the verification reaches. -/
structure Libs.Intact (L : Libs) (evidence : SignedEvidenceList) : Prop where
  tdxOptions : L.HasTdxOptions evidence
  quote : L.HasQuoteParts evidence
  eventLog : L.HasEventLog evidence
  /-- the REK's public area -/
  tpmtPublic : ∀ s, L.booted evidence = .ok s → Has evidence .tpmtPublic
  /-- a point whose coordinates fit in the uncompressed form -/
  point : ∀ tpmtPublic key, L.sealedKey evidence = .ok tpmtPublic →
    Libs.p256Key tpmtPublic = .ok key → key.x.length ≤ 33 ∧ key.y.length ≤ 65

end Attest
