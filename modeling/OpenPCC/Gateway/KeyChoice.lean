import OpenPCC.Gateway.KeyPairs

/-!
# The client's choice of a gateway key (`client.go`)

`NewFromConfig` has the key configurations of the gateway and the periods of its keys from the
remote configuration. Of the periods that are active it takes the one that began last, and requests
are sealed to the configuration with its key ID. The clock stands still during the choice.
-/

namespace Gateway

open Go

variable {PK SK : Type}

structure KeyRotationPeriodWithID where
  period : Period
  keyID : UInt8
  deriving DecidableEq

/-- `slices.MaxFunc` by `ActiveFrom`, from the first key on: the first one of those that began
last. -/
def latest (m : KeyRotationPeriodWithID) (keys : List KeyRotationPeriodWithID) :
    KeyRotationPeriodWithID :=
  keys.foldl (fun m k => if m.period.activeFrom < k.period.activeFrom then k else m) m

def noActiveKeys : Err := .new "no active OHTTP keys available" []

/-- The choice in `NewFromConfig`. -/
def desiredKeyConfig (now : Int) (keyConfigs : List (KeyConfig PK))
    (keyRotationPeriods : List KeyRotationPeriodWithID) : Except Err (KeyConfig PK) :=
  match keyRotationPeriods.filter (·.period.isActive now) with
  | [] => .error noActiveKeys
  | key :: validKeys =>
    let desiredKey := latest key validKeys
    match keyConfigs.find? (·.keyID == desiredKey.keyID) with
    | some config => .ok config
    | none => .error (.new "no key config found for key ID %d" [.int desiredKey.keyID.toNat])

/-- What is published for the keys of a gateway, in any order. -/
structure Published (kps : KeyPairs PK SK) (configs : List (KeyConfig PK))
    (periods : List KeyRotationPeriodWithID) : Prop where
  configs : configs.Perm (kps.map (·.keyPair.keyConfig))
  periods : periods.Perm (kps.map fun kp => ⟨kp.period, kp.keyPair.keyConfig.keyID⟩)

def Key.period (key : Key) : Period := ⟨key.activeFrom, key.activeUntil⟩

/-- At the time `now` no key is active and the client says so, or the client seals to the public key
of the key that began last, and until that key expires the gateway opens what is sealed to it. -/
def Chooses {URL : Type} (scheme : Scheme PK SK) (cfg : Config) (g : Server URL PK SK) (now : Int)
    (choice : Except Err (KeyConfig PK)) : Prop :=
  (∀ key ∈ cfg.keys, key.period.isActive now = false) ∧ choice = .error noActiveKeys ∨
    ∃ key ∈ cfg.keys, key.period.isActive now = true ∧
      (∀ key' ∈ cfg.keys, key'.period.isActive now = true → key'.activeFrom ≤ key.activeFrom) ∧
      ∃ config, choice = .ok config ∧ config.keyID = key.id ∧
        ∀ now' header, now ≤ now' → now' ≤ key.activeUntil → config.Fits header →
          ∃ secretKey, g.keyPairs.findSecretKey scheme now' header = .ok (some secretKey) ∧
            scheme.Opens config.publicKey secretKey

end Gateway
