import OpenPCC.Gateway.KeyPairs

/-!
# Published keys and the keys of the gateway

* `keyPairs_of_lists`: the gateway derives the key pair with the ID `i` from the `i`-th seed.
* `configs_of_seeds`: the published configurations have the IDs in order, and all have the public
  key of the first seed.
* `findSecretKey_of_lists`: the IDs are distinct, so the key pair that a header names is found.
-/

namespace Gateway

open Go

variable {URL PK SK : Type} {scheme : Scheme PK SK} {packages : Packages URL}
  {cfg : Config} {seeds : List Bytes} {g : Server URL PK SK}

/-! ## The key pairs of the gateway -/

theorem keyPairsOf_of_newGateway (h : newGateway scheme packages cfg = .ok g) :
    keyPairsOf scheme cfg.keys = .ok g.keyPairs := by
  unfold newGateway at h
  split at h
  · cases h
  · split at h
    · cases h
    · split at h
      · cases h
      · split at h
        · cases h
        · next hkeys =>
          split at h
          · cases h
          · cases h
            exact hkeys

theorem keyPairsOf_eq_ok {keys : List Key} {kps : KeyPairs PK SK}
    (h : keyPairsOf scheme keys = .ok kps) :
    kps.length = keys.length ∧
      ∀ (i : Nat) key, keys[i]? = some key → ∃ seed, Hex.decodeString key.seed = .ok seed ∧
        kps[i]? = some (generateKeyPair scheme key.id seed key.activeFrom key.activeUntil) := by
  induction keys generalizing kps with
  | nil =>
    cases h
    exact ⟨rfl, fun i key hkey => by simp at hkey⟩
  | cons key keys ih =>
    rw [keyPairsOf] at h
    split at h
    · cases h
    · next seed hseed =>
      cases hrest : keyPairsOf scheme keys with
      | error err =>
        rw [hrest] at h
        cases h
      | ok kps' =>
        rw [hrest] at h
        cases h
        obtain ⟨hlen, hkeys⟩ := ih hrest
        refine ⟨by rw [List.length_cons, List.length_cons, hlen], fun i key' hkey' => ?_⟩
        cases i with
        | zero =>
          obtain rfl := Option.some.inj hkey'
          exact ⟨seed, hseed, rfl⟩
        | succ i => exact hkeys i key' hkey'

theorem keyPairs_of_lists (hlists : cfg.Lists seeds)
    (hg : newGateway scheme packages cfg = .ok g) :
    g.keyPairs.length = seeds.length ∧
      ∀ (i : Nat) kp, g.keyPairs[i]? = some kp → ∃ seed activeFrom activeUntil,
        seeds[i]? = some seed ∧
          kp = generateKeyPair scheme (UInt8.ofNat i) seed activeFrom activeUntil := by
  obtain ⟨hlen, hkeys⟩ := keyPairsOf_eq_ok (keyPairsOf_of_newGateway hg)
  refine ⟨hlen.trans hlists.1, fun i kp hkp => ?_⟩
  obtain ⟨hi, -⟩ := List.getElem?_eq_some_iff.1 hkp
  have hi' : i < cfg.keys.length := hlen ▸ hi
  have hi'' : i < seeds.length := hlists.1 ▸ hi'
  have hkey := List.getElem?_eq_getElem hi'
  have hseed := List.getElem?_eq_getElem hi''
  obtain ⟨hid, hdecode⟩ := hlists.2 i _ _ hkey hseed
  obtain ⟨seed, hdecode', hkp'⟩ := hkeys i _ hkey
  obtain rfl := Except.ok.inj (hdecode.symm.trans hdecode')
  have heq := Option.some.inj (hkp.symm.trans hkp')
  rw [hid] at heq
  exact ⟨_, _, _, hseed, heq⟩

/-! ## The published configurations -/

/-- The configuration of a key with this ID and seed. -/
def configOf (scheme : Scheme PK SK) (i : Nat) (seed : Bytes) : KeyConfig PK :=
  (generateKeyPair scheme (UInt8.ofNat i) seed 0 0).keyPair.keyConfig

theorem keyConfig_generateKeyPair (i : Nat) (seed : Bytes) (activeFrom activeUntil : Int) :
    (generateKeyPair scheme (UInt8.ofNat i) seed activeFrom activeUntil).keyPair.keyConfig =
      configOf scheme i seed := rfl

theorem configOf_publicKey (i : Nat) (seed : Bytes) :
    (configOf scheme i seed).publicKey = (scheme.deriveKeyPair seed).1 := rfl

/-- The configurations of `n` keys that are derived from one seed. -/
def configsOf (scheme : Scheme PK SK) (n : Nat) (seed : Bytes) : List (KeyConfig PK) :=
  (List.range n).map fun i => configOf scheme i seed

theorem length_configsOf (n : Nat) (seed : Bytes) : (configsOf scheme n seed).length = n := by
  rw [configsOf, List.length_map, List.length_range]

theorem getElem?_configsOf {n i : Nat} {seed : Bytes} {config : KeyConfig PK} :
    (configsOf scheme n seed)[i]? = some config ↔ i < n ∧ config = configOf scheme i seed := by
  rw [configsOf, List.getElem?_map, Option.map_eq_some_iff]
  constructor
  · rintro ⟨j, hj, rfl⟩
    obtain ⟨hi, rfl⟩ := List.getElem?_eq_some_iff.1 hj
    rw [List.length_range] at hi
    exact ⟨hi, by rw [List.getElem_range]⟩
  · rintro ⟨hi, rfl⟩
    exact ⟨i, List.getElem?_range hi, rfl⟩

theorem configs_of_seeds (clock : Nat → Int) (hlen : seeds.length ≤ 255) :
    generateKeyConfigs scheme clock seeds =
      .ok (configsOf scheme seeds.length (seeds.headD [])) := by
  have hmax : ¬ maxUint8 < seeds.length := Nat.not_lt.2 hlen
  cases seeds with
  | nil => rfl
  | cons seed seeds =>
    simp only [generateKeyConfigs, generateKeyPairs, if_neg hmax, Except.map, List.map_map]
    rfl

/-! ## Finding the key of a request -/

theorem checkIfActive_of_isActive {p : Period} {now : Int} (h : p.isActive now = true) :
    p.checkIfActive now = none := by
  have hexpired : p.isExpired now = false := by
    rw [Period.isActive, Bool.and_eq_true, Bool.not_eq_true'] at h
    exact h.2
  rw [Period.checkIfActive, hexpired, h]
  rfl

theorem findLoop_of_ne {header : RequestHeader} {kps : KeyPairs PK SK}
    {kp : ExpiringKeyPair PK SK} {now : Int} {i : Nat} (hkp : kps[i]? = some kp)
    (hactive : kp.period.isActive now = true) (hfits : kp.keyPair.keyConfig.Fits header)
    (hne : ∀ j kp', j < i → kps[j]? = some kp' → header.keyID ≠ kp'.keyPair.keyConfig.keyID)
    (lastErr : Option Err) :
    KeyPairs.findLoop scheme now header lastErr kps = .ok (some kp.keyPair.secretKey) := by
  -- by induction on the key pairs: those before the `i`-th give an error
  induction kps generalizing i lastErr with
  | nil => simp at hkp
  | cons kp₀ kps ih =>
    cases i with
    | zero =>
      obtain rfl := Option.some.inj hkp
      rw [KeyPairs.findLoop, ExpiringKeyPair.findSecretKey, scheme.findSecretKey_of_fits _ _ hfits,
        checkIfActive_of_isActive hactive]
    | succ i =>
      obtain ⟨err, herr⟩ := scheme.findSecretKey_of_ne kp₀.keyPair header
        (hne 0 kp₀ (Nat.succ_pos i) rfl)
      rw [KeyPairs.findLoop, ExpiringKeyPair.findSecretKey, herr]
      exact ih hkp (fun j kp' hj hkp' => hne (j + 1) kp' (Nat.succ_lt_succ hj) hkp') (some err)

theorem ofNat_ne {i j : Nat} (hi : i < 256) (hj : j < i) : UInt8.ofNat i ≠ UInt8.ofNat j := by
  intro h
  have hnat := congrArg UInt8.toNat h
  rw [UInt8.toNat_ofNat', UInt8.toNat_ofNat'] at hnat
  omega

theorem findSecretKey_of_lists (hlen : seeds.length ≤ 255) (hlists : cfg.Lists seeds)
    (hg : newGateway scheme packages cfg = .ok g) {i : Nat} {kp : ExpiringKeyPair PK SK}
    {now : Int} {header : RequestHeader} (hkp : g.keyPairs[i]? = some kp)
    (hactive : kp.period.isActive now = true) (hfits : kp.keyPair.keyConfig.Fits header) :
    g.keyPairs.findSecretKey scheme now header = .ok (some kp.keyPair.secretKey) := by
  obtain ⟨hlen', hkeys⟩ := keyPairs_of_lists hlists hg
  obtain ⟨hi, -⟩ := List.getElem?_eq_some_iff.1 hkp
  obtain ⟨seed, activeFrom, activeUntil, -, rfl⟩ := hkeys i kp hkp
  refine findLoop_of_ne hkp hactive hfits (fun j kp' hj hkp' => ?_) none
  obtain ⟨seed', activeFrom', activeUntil', -, rfl⟩ := hkeys j kp' hkp'
  rw [hfits.1]
  exact ofNat_ne (by omega) hj

/-! ## Published and derived keys -/

theorem agree_iff (hlists : cfg.Lists seeds) (hg : newGateway scheme packages cfg = .ok g) :
    Agree (configsOf scheme seeds.length (seeds.headD [])) g.keyPairs ↔
      ∀ s ∈ seeds, ∀ s' ∈ seeds, s = s' := by
  obtain ⟨hlen, hkeys⟩ := keyPairs_of_lists hlists hg
  constructor
  · rintro ⟨-, hagree⟩
    have hhead : ∀ s ∈ seeds, seeds.headD [] = s := by
      intro s hs
      obtain ⟨i, hi, rfl⟩ := List.getElem_of_mem hs
      have hkp : g.keyPairs[i]? = some g.keyPairs[i] := List.getElem?_eq_getElem (by omega)
      obtain ⟨-, -, hpub⟩ := hagree i _ _ (getElem?_configsOf.2 ⟨hi, rfl⟩) hkp
      obtain ⟨seed, activeFrom, activeUntil, hseed, heq⟩ := hkeys i _ hkp
      rw [heq, keyConfig_generateKeyPair, configOf_publicKey, configOf_publicKey] at hpub
      rw [scheme.deriveKeyPair_injective _ _ hpub]
      exact (List.getElem_eq_iff hi).2 hseed |>.symm
    intro s hs s' hs'
    rw [← hhead s hs, ← hhead s' hs']
  · intro hequal
    refine ⟨by rw [length_configsOf, hlen], fun i config kp hconfig hkp => ?_⟩
    obtain ⟨seed, activeFrom, activeUntil, hseed, rfl⟩ := hkeys i kp hkp
    obtain ⟨-, rfl⟩ := getElem?_configsOf.1 hconfig
    have hmem := List.mem_of_getElem? hseed
    have hhead : seeds.headD [] = seed := by
      cases seeds with
      | nil => cases hmem
      | cons seed₀ seeds => exact hequal seed₀ List.mem_cons_self seed hmem
    rw [hhead]
    exact ⟨rfl, rfl, rfl⟩

theorem canOpen_of_agree (hlen : seeds.length ≤ 255) (hlists : cfg.Lists seeds)
    (hg : newGateway scheme packages cfg = .ok g) {seed₀ : Bytes}
    (hagree : Agree (configsOf scheme seeds.length seed₀) g.keyPairs) :
    CanOpen scheme (configsOf scheme seeds.length seed₀) g.keyPairs := by
  intro i config kp now header hconfig hkp hactive hfits
  obtain ⟨hid, hid', hpub⟩ := hagree.2 i config kp hconfig hkp
  obtain ⟨seed, activeFrom, activeUntil, hseed, rfl⟩ := (keyPairs_of_lists hlists hg).2 i kp hkp
  obtain ⟨-, rfl⟩ := getElem?_configsOf.1 hconfig
  refine ⟨_, findSecretKey_of_lists hlen hlists hg hkp hactive ?_, seed, ?_⟩
  · -- all configurations are made for the one suite
    exact ⟨hfits.1.trans (hid.trans hid'.symm), hfits.2⟩
  · rw [hpub]
    rfl

/-- The published configurations are those of the gateway, so that what is sealed to them can be
opened, exactly if all seeds are the same. -/
theorem agree_iff_seeds_eq (clock : Nat → Int) (hlen : seeds.length ≤ 255)
    (hlists : cfg.Lists seeds) (hg : newGateway scheme packages cfg = .ok g) :
    ∃ configs, generateKeyConfigs scheme clock seeds = .ok configs ∧
      ((Agree configs g.keyPairs ∧ CanOpen scheme configs g.keyPairs) ↔
        ∀ s ∈ seeds, ∀ s' ∈ seeds, s = s') := by
  refine ⟨_, configs_of_seeds clock hlen, ?_⟩
  rw [← agree_iff hlists hg]
  exact and_iff_left_of_imp (canOpen_of_agree hlen hlists hg)

/-! ## Two seeds -/

/-- A scheme in which a key is its seed. -/
def seedScheme : Scheme Bytes Bytes where
  deriveKeyPair seed := (seed, seed)
  findSecretKey kp header :=
    if kp.keyConfig.Fits header then .ok kp.secretKey else .error (.new "key not found" [])
  addYear t := t + 1
  deriveKeyPair_injective _ _ h := h
  findSecretKey_of_fits _ _ h := if_pos h
  findSecretKey_of_ne _ _ h := ⟨_, if_neg fun hfits => h hfits.1⟩

/-- Packages without errors. -/
def packagesOk : Packages Bytes := ⟨.ok, none, none⟩

/-- 32 times the byte `x`. -/
def seedOf (x : UInt8) : Bytes := List.replicate 32 x

/-- The keys of two seeds. -/
def twoKeys (x : UInt8) : Config :=
  ⟨[⟨0, Hex.encodeToString (seedOf 0xab), 0, 10⟩, ⟨1, Hex.encodeToString (seedOf x), 0, 10⟩], [],
    []⟩

def twoServer (x : UInt8) : Server Bytes Bytes Bytes :=
  ⟨[], [], [generateKeyPair seedScheme 0 (seedOf 0xab) 0 10,
    generateKeyPair seedScheme 1 (seedOf x) 0 10]⟩

theorem twoKeys_lists (x : UInt8) : (twoKeys x).Lists [seedOf 0xab, seedOf x] := by
  refine ⟨rfl, fun i key seed hkey hseed => ?_⟩
  match i with
  | 0 =>
    cases hkey
    cases hseed
    exact ⟨rfl, Hex.decodeString_encodeToString _⟩
  | 1 =>
    cases hkey
    cases hseed
    exact ⟨rfl, Hex.decodeString_encodeToString _⟩
  | i + 2 => cases hkey

theorem newGateway_twoKeys (x : UInt8) :
    newGateway seedScheme packagesOk (twoKeys x) = .ok (twoServer x) := by
  simp only [newGateway, packagesOk, twoKeys, keyPairsOf, Hex.decodeString_encodeToString]
  rfl

theorem agree_twoKeys :
    ∃ configs, generateKeyConfigs seedScheme (fun _ => 0) [seedOf 0xab, seedOf 0xab] = .ok configs ∧
      Agree configs (twoServer 0xab).keyPairs ∧
      CanOpen seedScheme configs (twoServer 0xab).keyPairs := by
  obtain ⟨configs, hconfigs, hiff⟩ := agree_iff_seeds_eq (fun _ => 0) (by decide)
    (twoKeys_lists 0xab) (newGateway_twoKeys 0xab)
  exact ⟨configs, hconfigs, hiff.2 (by decide)⟩

/-- The second configuration is published with the public key of the first seed. The gateway has
the secret key of the second one. -/
theorem second_seed_not_published :
    let configs := [configOf seedScheme 0 (seedOf 0xab), configOf seedScheme 1 (seedOf 0xab)]
    (twoKeys 0xcd).Lists [seedOf 0xab, seedOf 0xcd] ∧
      newGateway seedScheme packagesOk (twoKeys 0xcd) = .ok (twoServer 0xcd) ∧
      generateKeyConfigs seedScheme (fun _ => 0) [seedOf 0xab, seedOf 0xcd] = .ok configs ∧
      ¬ Agree configs (twoServer 0xcd).keyPairs ∧
      ¬ CanOpen seedScheme configs (twoServer 0xcd).keyPairs := by
  refine ⟨twoKeys_lists 0xcd, newGateway_twoKeys 0xcd, rfl, fun h => ?_, fun h => ?_⟩
  · have hpub := (h.2 1 _ _ rfl rfl).2.2
    revert hpub
    decide
  · obtain ⟨secretKey, hfind, seed, hopens⟩ :=
      h 1 _ _ 5 ⟨1, 0x30, 1, 1⟩ rfl rfl (by decide) (by decide)
    have hfound : (twoServer 0xcd).keyPairs.findSecretKey seedScheme 5 ⟨1, 0x30, 1, 1⟩ =
        .ok (some (seedOf 0xcd)) := rfl
    rw [hfound] at hfind
    obtain rfl := Option.some.inj (Except.ok.inj hfind)
    have heq : ((seed, seed) : Bytes × Bytes) = (seedOf 0xab, seedOf 0xcd) := hopens
    obtain ⟨rfl, heq⟩ := Prod.mk.inj heq
    exact absurd heq (by decide)

end Gateway
