import OpenPCC.Go.Hex

/-!
# Key pairs of the OHTTP gateway (`gateway/keypairs.go`, `gateway/gateway.go`, `keyrotation`)

`NewGateway` derives a key pair for each key of its configuration, from the seed that the key has in
hexadecimal. `GenerateKeyConfigs` derives the key configurations that are published for a list of
seeds. A request is sealed to a public key and names its key in the header; `KeyPairs.FindSecretKey`
looks for a key pair that fits the header and is active.

The key encapsulation and the OHTTP package are a `Scheme` over arbitrary types of keys. The clock
stands still during one call of `FindSecretKey`.
-/

namespace Gateway

open Go

/-- The parameters of an HPKE suite. -/
structure Suite where
  kemID : UInt16
  kdfID : UInt16
  aeadID : UInt16
  deriving DecidableEq

/-- `Suite`: X25519Kyber768Draft00, HKDF-SHA256 and AES-128-GCM. -/
def suite : Suite := ⟨0x30, 1, 1⟩

/-- `math.MaxUint8`. -/
def maxUint8 : Nat := 255

/-- `math.MaxInt8`. -/
def maxInt8 : Nat := 127

/-- `ohttp.SymmetricAlgorithm`. -/
structure SymmetricAlgorithm where
  kdfID : UInt16
  aeadID : UInt16
  deriving DecidableEq

/-- `ohttp.KeyConfig`. -/
structure KeyConfig (PK : Type) where
  keyID : UInt8
  kemID : UInt16
  publicKey : PK
  symmetricAlgorithms : List SymmetricAlgorithm
  deriving DecidableEq

/-- `ohttp.KeyPair`. -/
structure KeyPair (PK SK : Type) where
  secretKey : SK
  keyConfig : KeyConfig PK
  deriving DecidableEq

/-- `twoway.RequestHeader`. -/
structure RequestHeader where
  keyID : UInt8
  kemID : UInt16
  kdfID : UInt16
  aeadID : UInt16
  deriving DecidableEq

/-- A header of a request that is sealed to the configuration. -/
def KeyConfig.Fits {PK : Type} (config : KeyConfig PK) (header : RequestHeader) : Prop :=
  header.keyID = config.keyID ∧ header.kemID = config.kemID ∧
    ⟨header.kdfID, header.aeadID⟩ ∈ config.symmetricAlgorithms

instance {PK : Type} (config : KeyConfig PK) (header : RequestHeader) :
    Decidable (config.Fits header) := inferInstanceAs (Decidable (_ ∧ _ ∧ _))

/-- What the key pairs are made and found with: `DeriveKeyPair` of the KEM, where the public key
tells the seed, and `ohttp.KeyPair.FindSecretKey`, which gives the secret key for a header that fits
and an error for one with another key ID. `addYear` is `AddDate(1, 0, 0)`. -/
structure Scheme (PK SK : Type) where
  deriveKeyPair : Bytes → PK × SK
  findSecretKey : KeyPair PK SK → RequestHeader → Except Err SK
  addYear : Int → Int
  deriveKeyPair_injective : ∀ s s', (deriveKeyPair s).1 = (deriveKeyPair s').1 → s = s'
  findSecretKey_of_fits : ∀ kp header, kp.keyConfig.Fits header →
    findSecretKey kp header = .ok kp.secretKey
  findSecretKey_of_ne : ∀ kp header, header.keyID ≠ kp.keyConfig.keyID →
    ∃ err, findSecretKey kp header = .error err

/-- `keyrotation.Period`. -/
structure Period where
  activeFrom : Int
  activeUntil : Int
  deriving DecidableEq

def Period.isExpired (p : Period) (now : Int) : Bool := p.activeUntil < now

def Period.isActive (p : Period) (now : Int) : Bool := p.activeFrom < now && !p.isExpired now

def errorKeyNotYetActive : Err := .new "key not yet active" []

def errorKeyExpired : Err := .new "key expired" []

def Period.checkIfActive (p : Period) (now : Int) : Option Err :=
  if p.isExpired now then some errorKeyExpired
  else if !p.isActive now then some errorKeyNotYetActive
  else none

structure ExpiringKeyPair (PK SK : Type) where
  keyPair : KeyPair PK SK
  period : Period
  deriving DecidableEq

variable {PK SK : Type} (scheme : Scheme PK SK)

/-! ## Finding a key -/

def ExpiringKeyPair.findSecretKey (now : Int) (k : ExpiringKeyPair PK SK)
    (header : RequestHeader) : Except Err SK :=
  match scheme.findSecretKey k.keyPair header with
  | .error err => .error err
  | .ok keyInfo =>
    match k.period.checkIfActive now with
    | some err => .error err
    | none => .ok keyInfo

abbrev KeyPairs (PK SK : Type) := List (ExpiringKeyPair PK SK)

/-- The loop of `KeyPairs.FindSecretKey`. Without key pairs the result is the zero value and no
error, which is `none`. -/
def KeyPairs.findLoop (now : Int) (header : RequestHeader) :
    Option Err → KeyPairs PK SK → Except Err (Option SK)
  | some lastErr, [] => .error lastErr
  | none, [] => .ok none
  | _, kp :: kps =>
    match kp.findSecretKey scheme now header with
    | .error err => KeyPairs.findLoop now header (some err) kps
    | .ok info => .ok (some info)

def KeyPairs.findSecretKey (now : Int) (kps : KeyPairs PK SK) (header : RequestHeader) :
    Except Err (Option SK) := KeyPairs.findLoop scheme now header none kps

/-! ## Making key pairs -/

def generateKeyPair (id : UInt8) (seed : Bytes) (activeFrom activeUntil : Int) :
    ExpiringKeyPair PK SK :=
  let (pubKey, secretKey) := scheme.deriveKeyPair seed
  { keyPair :=
      { secretKey
        keyConfig :=
          { keyID := id
            kemID := suite.kemID
            publicKey := pubKey
            symmetricAlgorithms := [⟨suite.kdfID, suite.aeadID⟩] } }
    period := ⟨activeFrom, activeUntil⟩ }

/-- `generateKeyPairs`, with the readings of the clock, two for each key pair. Every key pair is
made from the first seed. -/
def generateKeyPairs (clock : Nat → Int) (seeds : List Bytes) :
    Except Err (KeyPairs PK SK) :=
  if maxUint8 < seeds.length then
    .error (.new "can at most generate %d keypairs, got %d seeds"
      [.int maxInt8, .int seeds.length])
  else
    match seeds with
    | [] => .ok []
    | seed :: _ =>
      .ok ((List.range seeds.length).map fun i =>
        generateKeyPair scheme (UInt8.ofNat i) seed (clock (2 * i))
          (scheme.addYear (clock (2 * i + 1))))

def generateKeyConfigs (clock : Nat → Int) (seeds : List Bytes) :
    Except Err (List (KeyConfig PK)) :=
  (generateKeyPairs scheme clock seeds).map fun kps => kps.map (·.keyPair.keyConfig)

/-! ## The gateway -/

structure Key where
  id : UInt8
  seed : Bytes
  activeFrom : Int
  activeUntil : Int
  deriving DecidableEq

structure Config where
  keys : List Key
  bankURL : Bytes
  routerURL : Bytes
  deriving DecidableEq

/-- The other packages that `NewGateway` calls: `url.Parse`, `obhttp.NewRequestDecoder` and
`ohttp.NewGateway`, with their errors. -/
structure Packages (URL : Type) where
  urlParse : Bytes → Except Err URL
  newRequestDecoder : Option Err
  newGateway : Option Err

structure Server (URL PK SK : Type) where
  bankURL : URL
  routerURL : URL
  keyPairs : KeyPairs PK SK

/-- The loop of `NewGateway` over the keys. -/
def keyPairsOf : List Key → Except Err (KeyPairs PK SK)
  | [] => .ok []
  | key :: keys =>
    match Hex.decodeString key.seed with
    | .error err => .error (.errorf "failed to decode key seed from hex: %w" [] err)
    | .ok seed =>
      (keyPairsOf keys).map
        (generateKeyPair scheme key.id seed key.activeFrom key.activeUntil :: ·)

def newGateway {URL : Type} (packages : Packages URL) (cfg : Config) :
    Except Err (Server URL PK SK) :=
  match packages.urlParse cfg.bankURL with
  | .error err => .error (.errorf "failed to parse bank URL: %w" [] err)
  | .ok bankURL =>
    match packages.urlParse cfg.routerURL with
    | .error err => .error (.errorf "failed to parse router URL: %w" [] err)
    | .ok routerURL =>
      match packages.newRequestDecoder with
      | some err => .error (.errorf "failed to create legacy request decoder: %w" [] err)
      | none =>
        match keyPairsOf scheme cfg.keys with
        | .error err => .error err
        | .ok keyPairs =>
          match packages.newGateway with
          | some err => .error (.errorf "failed to create ohttp gateway: %w" [] err)
          | none => .ok ⟨bankURL, routerURL, keyPairs⟩

/-! ## Published and derived keys -/

/-- The configuration lists these seeds, under the IDs 0, 1, 2 and so on. -/
def Config.Lists (cfg : Config) (seeds : List Bytes) : Prop :=
  cfg.keys.length = seeds.length ∧
    ∀ i key seed, cfg.keys[i]? = some key → seeds[i]? = some seed →
      key.id = UInt8.ofNat i ∧ Hex.decodeString key.seed = .ok seed

/-- The `i`-th of the published configurations has the ID `i` and the public key of the `i`-th key
pair, which has the same ID. -/
def Agree (configs : List (KeyConfig PK)) (kps : KeyPairs PK SK) : Prop :=
  configs.length = kps.length ∧
    ∀ i config kp, configs[i]? = some config → kps[i]? = some kp →
      config.keyID = UInt8.ofNat i ∧ kp.keyPair.keyConfig.keyID = UInt8.ofNat i ∧
        config.publicKey = kp.keyPair.keyConfig.publicKey

/-- What is sealed to the public key can be opened with the secret key: they were derived
together. -/
def Scheme.Opens (pubKey : PK) (secretKey : SK) : Prop :=
  ∃ seed, scheme.deriveKeyPair seed = (pubKey, secretKey)

/-- While the `i`-th key pair is active, requests that are sealed to the `i`-th configuration can be
opened. -/
def CanOpen (configs : List (KeyConfig PK)) (kps : KeyPairs PK SK) : Prop :=
  ∀ (i : Nat) config kp now header, configs[i]? = some config → kps[i]? = some kp →
    kp.period.isActive now → config.Fits header →
      ∃ secretKey, kps.findSecretKey scheme now header = .ok (some secretKey) ∧
        scheme.Opens config.publicKey secretKey

end Gateway
