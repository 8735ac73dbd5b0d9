import OpenPCC.Go.Error
import OpenPCC.Go.Utf8
import OpenPCC.Lib.Counter

/-!
# Opening HPKE messages (`tpm/hpke/aead.go`, `tpm/hpke/hpke.go`)

A receiver derives a key and a base nonce from the shared secret (`keySchedule`). The context that
it gets opens a sequence of messages: the nonce of a message is the base nonce, masked with the
sequence number, and the sequence number is incremented when a message was opened.

The key derivation and the cipher are arbitrary functions (`Kdf`, `Aead`); `Expand` returns as many
bytes as it was asked for. The slices of a context have one length, which the context carries as a
fact, so that no index of its loops is out of range.
-/

namespace Hpke

open Go

/-- `cipher.AEAD`, with its key: `Open` of a nonce, a ciphertext and additional data. -/
structure Aead where
  nonceSize : Nat
  open_ : Bytes → Bytes → Bytes → Except Err Bytes

/-- `hpke.KDF`. -/
structure Kdf where
  extractSize : Nat
  /-- secret and salt -/
  extract : Bytes → Bytes → Bytes
  /-- key, info and length -/
  expand : Bytes → Bytes → Nat → Bytes
  length_expand : ∀ prk info l, (expand prk info l).length = l

/-- `hpke.ErrAEADSeqOverflows`. -/
def errAEADSeqOverflows : Err := .new "the sequence number overflows" []

/-! ## Contexts -/

/-- The fields of `openContext` that `Open` does not use. -/
structure Secrets where
  sharedSecret : Bytes
  secret : Bytes
  keyScheduleContext : Bytes
  exporterSecret : Bytes
  key : Bytes

structure OpenContext where
  secrets : Secrets
  baseNonce : Bytes
  sequenceNumber : Bytes
  aead : Aead
  nonce : Bytes
  length_sequenceNumber : sequenceNumber.length = baseNonce.length
  length_nonce : nonce.length = baseNonce.length

/-- A context at the start: the sequence number and the nonce are zero. -/
def newOpenContext (secrets : Secrets) (aead : Aead) (baseNonce : Bytes) : OpenContext where
  secrets := secrets
  baseNonce := baseNonce
  sequenceNumber := List.replicate baseNonce.length 0
  aead := aead
  nonce := List.replicate baseNonce.length 0
  length_sequenceNumber := List.length_replicate
  length_nonce := List.length_replicate

/-- The first loop of `increment`. -/
def allOnes (sequenceNumber : Bytes) : UInt8 := sequenceNumber.foldl (· &&& ·) 0xFF

/-- The second loop of `increment`, from the last byte to the first: the carry and the bytes. -/
def incrementLoop : Bytes → Nat × Bytes
  | [] => (1, [])
  | b :: rest =>
    let (carry, rest) := incrementLoop rest
    let sum := b.toNat + carry
    (sum >>> 8, UInt8.ofNat (sum &&& 0xFF) :: rest)

theorem length_incrementLoop (b : Bytes) : (incrementLoop b).2.length = b.length := by
  induction b with
  | nil => rfl
  | cons x b ih => rw [incrementLoop, List.length_cons, List.length_cons, ih]

namespace OpenContext

/-- `calcNonce`, which leaves the nonce in the context. -/
def calcNonce (c : OpenContext) : OpenContext :=
  { c with
    nonce := xorBytes c.baseNonce c.sequenceNumber
    length_nonce := length_xorBytes c.length_sequenceNumber }

/-- The context with the bytes of the second loop of `increment`. -/
def incremented (c : OpenContext) : OpenContext :=
  { c with
    sequenceNumber := (incrementLoop c.sequenceNumber).2
    length_sequenceNumber := (length_incrementLoop _).trans c.length_sequenceNumber }

/-- `increment`, with its error. -/
def increment (c : OpenContext) : Option Err × OpenContext :=
  if allOnes c.sequenceNumber = 0xFF then (some errAEADSeqOverflows, c)
  else
    let carry := (incrementLoop c.sequenceNumber).1
    if carry ≠ 0 then (some errAEADSeqOverflows, c.incremented) else (none, c.incremented)

/-- `Open`. A plaintext for which there is no next sequence number is zeroed and not returned. -/
def open_ (c : OpenContext) (ct aad : Bytes) : Except Err Bytes × OpenContext :=
  let c := c.calcNonce
  match c.aead.open_ c.nonce ct aad with
  | .error err => (.error err, c)
  | .ok pt =>
    match c.increment with
    | (some err, c) => (.error err, c)
    | (none, c) => (.ok pt, c)

end OpenContext

/-! ## The key schedule -/

/-- KEM P256-HKDF-SHA256, KDF HKDF-SHA256 and AEAD AES-128-GCM, as `tpmSuite` has them. -/
def suiteID : Bytes :=
  utf8 "HPKE".toList ++ BigEndian.encode 2 0x10 ++ BigEndian.encode 2 1 ++ BigEndian.encode 2 1

def versionLabel : Bytes := utf8 "HPKE-v1".toList

def modeID : UInt8 := 0

def labeledExtract (kdf : Kdf) (salt label ikm : Bytes) : Bytes :=
  kdf.extract (versionLabel ++ suiteID ++ label ++ ikm) salt

def labeledExpand (kdf : Kdf) (prk label info : Bytes) (l : Nat) : Bytes :=
  kdf.expand prk (BigEndian.encode 2 l ++ versionLabel ++ suiteID ++ label ++ info) l

/-- `Receiver.keySchedule`, with `aeadID.KeySize()` and `aeadID.New`. The slices of the context have
the length of the base nonce, which is the nonce size of the cipher (`unused_keySchedule`). -/
def keySchedule (kdf : Kdf) (keySize : Nat) (newAead : Bytes → Except Err Aead) (ss info : Bytes) :
    Except Err OpenContext :=
  let pskIDHash := labeledExtract kdf [] (utf8 "psk_id_hash".toList) []
  let infoHash := labeledExtract kdf [] (utf8 "info_hash".toList) info
  let keySchCtx := [modeID] ++ pskIDHash ++ infoHash
  let secret := labeledExtract kdf ss (utf8 "secret".toList) []
  let key := labeledExpand kdf secret (utf8 "key".toList) keySchCtx (keySize % 2 ^ 16)
  match newAead key with
  | .error err => .error err
  | .ok aead =>
    let nn := aead.nonceSize % 2 ^ 16
    let baseNonce := labeledExpand kdf secret (utf8 "base_nonce".toList) keySchCtx nn
    let exporterSecret :=
      labeledExpand kdf secret (utf8 "exp".toList) keySchCtx (kdf.extractSize % 2 ^ 16)
    .ok (newOpenContext ⟨ss, secret, keySchCtx, exporterSecret, key⟩ aead baseNonce)

/-! ## Runs -/

/-- A call of `Open`: its arguments, the nonce that it left in the context and what it returned. -/
structure Opened where
  ct : Bytes
  aad : Bytes
  nonce : Bytes
  result : Except Err Bytes

def Opened.succeeded (o : Opened) : Bool := o.result.isOk

namespace OpenContext

/-- A sequence of calls, each with a ciphertext and additional data. -/
def run (c : OpenContext) : List (Bytes × Bytes) → List Opened × OpenContext
  | [] => ([], c)
  | (ct, aad) :: calls =>
    let (rest, c') := (c.open_ ct aad).2.run calls
    (⟨ct, aad, (c.open_ ct aad).2.nonce, (c.open_ ct aad).1⟩ :: rest, c')

/-- No message was opened yet. -/
def Unused (c : OpenContext) : Prop := c.sequenceNumber = List.replicate c.baseNonce.length 0

end OpenContext

/-- The calls that returned a plaintext. -/
def successes (opened : List Opened) : List Opened := opened.filter (·.succeeded)

end Hpke
