import OpenPCC.Attest.TpmQuote
import OpenPCC.Attest.EventLog
import OpenPCC.Transparency.Statement

/-!
# Certificates, keys and the libraries of the verifier

`Libs` collects what the verification of a compute node calls in other packages: decoders, which
may fail or return messages with parts missing, and signature checks. They are arbitrary
functions; none of them panics.
-/

namespace Attest

open Go

/-- `asn1.ObjectIdentifier`. -/
abbrev OID := List Int

inductive Curve where
  | p224 | p256 | p384 | p521
  deriving DecidableEq, Repr

def Curve.name : Curve → Bytes
  | .p224 => utf8 "P-224".toList
  | .p256 => utf8 "P-256".toList
  | .p384 => utf8 "P-384".toList
  | .p521 => utf8 "P-521".toList

/-- `ecdsa.PublicKey`; a coordinate is given by its `Bytes()`, which has no leading zeros. -/
structure EcdsaPublicKey where
  curve : Curve
  x : Bytes
  y : Bytes
  deriving DecidableEq, Repr

/-- A `crypto.PublicKey`, by its dynamic type. -/
inductive PublicKey where
  | rsa (key : RsaPublicKey)
  | ecdsa (key : EcdsaPublicKey)
  | other
  deriving DecidableEq, Repr

/-- The type of a key, as `%T` prints it. -/
def PublicKey.typeName : PublicKey → Bytes
  | .rsa _ => utf8 "*rsa.PublicKey".toList
  | .ecdsa _ => utf8 "*ecdsa.PublicKey".toList
  | .other => utf8 "<nil>".toList

/-- The fields of `x509.Certificate` the verifier reads. -/
structure Certificate where
  raw : Bytes
  publicKey : PublicKey
  extensions : List (OID × Bytes)
  unhandledCriticalExtensions : List OID
  deriving DecidableEq, Repr

/-- `x509.VerifyOptions`; the key usages are always `ExtKeyUsageAny`. -/
structure VerifyOptions where
  roots : List Certificate
  intermediates : List Certificate
  deriving DecidableEq, Repr

structure GceInstanceInfo where
  zone : Bytes
  projectNumber : Int
  projectID : Bytes
  instanceID : Int
  instanceName : Bytes
  securityVersion : Int
  isProduction : Bool
  deriving DecidableEq, Repr

/-- A header map: `map[string][]string`, as its entries in the message. -/
abbrev Headers := List (Bytes × List Bytes)

/-- The message `pb.TDXCollateral`; an absent part is empty. -/
structure PbTDXCollateral where
  rootCrlBody : Bytes
  rootCrlHeaders : Headers
  pckCrlBody : Bytes
  pckCrlHeaders : Headers
  pckCrlRootCertificate : Bytes
  pckCrlIntermediateCertificate : Bytes
  qeBody : Bytes
  qeHeaders : Headers
  qeRootCertificate : Bytes
  qeIntermediateCertificate : Bytes
  tcbBody : Bytes
  tcbHeaders : Headers
  tcbRootCertificate : Bytes
  tcbIntermediateCertificate : Bytes
  deriving DecidableEq, Repr

/-- `evidence.TDXCollateral`: the message with its certificates parsed. -/
structure TDXCollateral where
  message : PbTDXCollateral
  pckCrlRootCertificate : Option Certificate
  pckCrlIntermediateCertificate : Option Certificate
  qeRootCertificate : Option Certificate
  qeIntermediateCertificate : Option Certificate
  tcbRootCertificate : Option Certificate
  tcbIntermediateCertificate : Option Certificate
  deriving DecidableEq, Repr

/-- `tpm2.TPMAlgID`. -/
inductive AlgID where
  | rsa | ecc
  | other (id : Nat)
  deriving DecidableEq, Repr

/-- `tpm2.TPMECCCurve`. -/
inductive CurveID where
  | nistP256 | nistP384 | nistP521
  | other (id : Nat)
  deriving DecidableEq, Repr

/-- `tpm2.TPMTPublic`; the unions `Parameters` and `Unique` are given by their accessors. -/
structure TPMTPublic where
  type : AlgID
  authPolicy : Bytes
  /-- `Parameters.RSADetail()`: the exponent -/
  rsaDetail : Except Err Nat
  /-- `Unique.RSA()`: the modulus -/
  rsaUnique : Except Err Bytes
  /-- `Parameters.ECCDetail()`: the curve -/
  eccDetail : Except Err CurveID
  /-- `Unique.ECC()`: the point -/
  eccUnique : Except Err (Bytes × Bytes)

/-- The PEM files embedded in the verifier. -/
structure EmbeddedCerts where
  azureTPMIntermediateCertPEMs : List Bytes
  azureTPMRootCertPEM : Bytes
  gceEKAKRootCert : Bytes
  nrasRootCert : Bytes
  tdxRootCertBytes : Bytes

/-- A value of a predicate: a string, or the text of another one. -/
inductive PredicateValue where
  | string (s : Bytes)
  | other (text : Bytes)

abbrev Predicate := AList fun _ : Bytes => PredicateValue

abbrev ManifestStatement := Transparency.Statement Predicate

/-- The libraries. -/
structure Libs where
  tpm : Tpm
  boot : Boot
  certs : EmbeddedCerts
  -- crypto/x509, encoding/pem, encoding/asn1, encoding/base64
  parseCertificate : Bytes → Except Err Certificate
  verifyCertificate : VerifyOptions → Certificate → Except Err Unit
  pemDecode : Bytes → Option Bytes
  pemEncodeToMemory : Bytes → Bytes
  unmarshalInstanceInfo : Bytes → Except Err GceInstanceInfo
  base64RawURL : Bytes → Bytes
  -- go-sev-guest
  SnpAttestation : Type
  unmarshalSnpAttestation : Bytes → Except Err SnpAttestation
  snpAttestation : SnpAttestation → Except Err Unit
  -- go-tdx-guest
  TdxQuote : Type
  TdxOptions : Type
  unmarshalTDXCollateral : Bytes → Except Err PbTDXCollateral
  quoteToProto : Bytes → Except Err TdxQuote
  /-- `verify.RootOfTrustToOptions` of a CA bundle: the options, maybe nil, and the error. -/
  rootOfTrustToOptions : Bytes → Option TdxOptions × Option Err
  tdxQuote : TdxQuote → TdxOptions → TDXCollateral → Except Err Unit
  -- go-tpm
  TPM2BAttest : Type
  unmarshal2BAttest : Bytes → Except Err TPM2BAttest
  contents : TPM2BAttest → Except Err tpm.TPMSAttest
  /-- `Attested.Creation()`: the created object's name -/
  creation : tpm.TPMSAttest → Except Err Bytes
  unmarshalPublic : Bytes → Except Err TPMTPublic
  objectName : TPMTPublic → Except Err Bytes
  /-- `PCClientCompatible.PCRs` -/
  pcrs : List Nat → Bytes
  newPolicyCalculator : Except Err Unit
  /-- `PolicyPCR.Update` on a fresh calculator, then its digest -/
  policyPCR : Bytes → Vector UInt8 32 → Except Err Bytes
  -- golang-jwt: the token's claims are a `MapClaims`
  parseJWT : EcdsaPublicKey → Bytes → Except Err Bool
  -- the transparency verifier, and the packages that its statements are read with
  verifyStatementWithProcessor : Bytes → (Option ManifestStatement → Except Err Bytes) →
    Except Err (Option ManifestStatement)
  packages : Transparency.Packages Predicate
  /-- `json.Unmarshal` -/
  unmarshalImageManifest : Bytes → Except Err ImageManifest
  -- circl
  KemPublicKey : Type
  unmarshalBinaryPublicKey : Bytes → Except Err KemPublicKey
  marshalKemPublicKey : KemPublicKey → Except Err Bytes

end Attest
