import OpenPCC.Anonpay.Currency

/-!
# Nonces, credits and the issuer (`anonpay/nonce.go`, `credit.go`, `issuer.go`, `blind_signing.go`)

The partially blind RSA scheme is third-party: `Scheme` holds its functions. What
`IssueUnblindedCredit` draws at random (the blinding factor and the nonce, or the failure to draw
them) is a `Draw`.
-/

namespace Anonpay

open Go

/-! ## Nonces -/

def nonceTimeQuantizationSeconds : Int := 60 * 60
def nonceLen : Nat := 16
def nonceLifespanSeconds : Int := 60 * 60 * 24 + 2 * nonceTimeQuantizationSeconds
def nonceMaxClockSkewSeconds : Int := 30

/-- `anonpay.Nonce`. -/
structure Nonce where
  timestamp : Int
  nonce : Bytes
  unsafeIncrement : Bool
  deriving DecidableEq, Repr

/-- `RoundDownNonceTimestamp`; the division truncates towards zero. -/
def roundDownNonceTimestamp (timestamp : Int) : Int :=
  timestamp.tdiv nonceTimeQuantizationSeconds * nonceTimeQuantizationSeconds

/-- `Nonce.IsExpiredAt` at the Unix time `timestamp`. -/
def Nonce.isExpiredAt (n : Nonce) (timestamp : Int) : Bool :=
  let minTime := timestamp - nonceMaxClockSkewSeconds
  let maxTime := timestamp + (nonceLifespanSeconds + nonceMaxClockSkewSeconds)
  decide (n.timestamp < roundDownNonceTimestamp minTime) ||
    decide (n.timestamp > roundDownNonceTimestamp maxTime)

/-- The 8 bytes of an `int64`, most significant first. -/
def bigEndian64 (x : Int) : Bytes :=
  (List.range 8).reverse.map fun i => UInt8.ofNat ((x % 2 ^ 64).toNat >>> (8 * i))

/-- `Nonce.BlindBytes`. -/
def Nonce.blindBytes (n : Nonce) : Bytes := bigEndian64 n.timestamp ++ n.nonce

/-! ## Credits -/

/-- `anonpay.BlindedCredit`. -/
structure BlindedCredit where
  value : Value
  nonce : Nonce
  signature : Bytes
  deriving DecidableEq, Repr

/-- `anonpay.UnblindedCredit`. -/
structure UnblindedCredit where
  value : Value
  nonce : Nonce
  signature : Bytes
  deriving DecidableEq, Repr

/-- `anonpay.AnyCredit`: either kind of credit. -/
inductive AnyCredit where
  | blinded (c : BlindedCredit)
  | unblinded (c : UnblindedCredit)
  deriving DecidableEq, Repr

def AnyCredit.value : AnyCredit → Value
  | .blinded c => c.value
  | .unblinded c => c.value

def AnyCredit.nonce : AnyCredit → Nonce
  | .blinded c => c.nonce
  | .unblinded c => c.nonce

def AnyCredit.signature : AnyCredit → Bytes
  | .blinded c => c.signature
  | .unblinded c => c.signature

/-- `anonpay.BlindSignRequest`. -/
structure BlindSignRequest where
  value : Value
  blindedMessage : Bytes
  deriving DecidableEq, Repr

/-! ## The issuer -/

/-- The third-party blind signature scheme under the issuer's key. `VerifierState` is what
`FixedBlind` keeps for `Finalize`. -/
structure Scheme where
  /-- `Verifier.Verify(msg, metadata, signature)` -/
  verify : Bytes → Bytes → Bytes → Option Err
  /-- `Signer.BlindSign(blindedMessage, metadata)` -/
  blindSign : Bytes → Bytes → Except Err Bytes
  /-- `Verifier.FixedBlind(msg, metadata, zeroSalt, r, rInv)`: the blinded message and the state -/
  fixedBlind : Bytes → Bytes → Bytes → Bytes → Except Err (Bytes × Bytes)
  /-- `VerifierState.Finalize(blindSignature)` -/
  finalize : Bytes → Bytes → Except Err Bytes

/-- The scheme in which every signature verifies, for runs on concrete credits. -/
def Scheme.accepting : Scheme where
  verify _ _ _ := none
  blindSign _ _ := .ok []
  fixedBlind _ _ _ _ := .ok ([], [])
  finalize _ _ := .ok []

/-- What one call of `newUnsignedCredit` draws: `generateBlindingFactor` and `RandomNonce`. -/
structure Draw where
  blindingFactor : Except Err (Bytes × Bytes)
  nonce : Except Err Nonce

/-- `anonpay.Issuer`. -/
structure Issuer where
  scheme : Scheme

/-- `blindVerifier.verifyCredit`. -/
def Issuer.verifyCredit (i : Issuer) (c : AnyCredit) : Option Err :=
  let msg := c.nonce.blindBytes
  let metadata := c.value.blindBytes
  (i.scheme.verify msg metadata c.signature).map .verificationError

/-- `Issuer.BlindSign`. -/
def Issuer.blindSign (i : Issuer) (request : BlindSignRequest) : Except Err Bytes :=
  match i.scheme.blindSign request.blindedMessage request.value.blindBytes with
  | .error e => .error (.errorf "failed to sign blinded message: %w" [] e)
  | .ok signature => .ok signature

/-- `blindVerifier.newUnsignedCredit`: the blinded message, the nonce and the scheme's state. -/
def Issuer.newUnsignedCredit (i : Issuer) (d : Draw) (value : Value) :
    Except Err (Bytes × Nonce × Bytes) :=
  match d.blindingFactor with
  | .error e => .error (.errorf "failed to generate blinding factor: %w" [] e)
  | .ok (r, rInv) =>
    match d.nonce with
    | .error e => .error (.errorf "failed to prepare nonce: %w" [] e)
    | .ok nonce =>
      match i.scheme.fixedBlind nonce.blindBytes value.blindBytes r rInv with
      | .error e => .error (.errorf "failed to blind message: %w" [] e)
      | .ok (blindedMessage, state) => .ok (blindedMessage, nonce, state)

/-- `Issuer.IssueUnblindedCredit`. -/
def Issuer.issueUnblindedCredit (i : Issuer) (d : Draw) (value : Value) :
    Except Err UnblindedCredit :=
  match i.newUnsignedCredit d value with
  | .error e => .error (.errorf "failed to create unsigned credit: %w" [] e)
  | .ok (blindedMessage, nonce, state) =>
    match i.blindSign ⟨value, blindedMessage⟩ with
    | .error e => .error (.errorf "failed to blind sign: %w" [] e)
    | .ok blindSignature =>
      match i.scheme.finalize state blindSignature with
      | .error e =>
        .error (.errorf "failed to finalize: %w" [] (.errorf "failed to finalize: %w" [] e))
      | .ok signature => .ok ⟨value, nonce, signature⟩

theorem Issuer.issueUnblindedCredit_value {i : Issuer} {d : Draw} {value : Value}
    {c : UnblindedCredit} (h : i.issueUnblindedCredit d value = .ok c) : c.value = value := by
  unfold Issuer.issueUnblindedCredit at h
  split at h
  · cases h
  · split at h
    · cases h
    · split at h
      · cases h
      · cases h
        rfl

end Anonpay
