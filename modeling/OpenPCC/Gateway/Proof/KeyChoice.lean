import Mathlib.Data.List.Nodup
import OpenPCC.Gateway.KeyChoice
import OpenPCC.Gateway.Proof.KeyPairs

/-!
# The chosen key opens at the gateway

* `latest_spec`, `desiredKeyConfig_cases`: what the client chooses.
* `keyPairs_eq_map`: the gateway has one key pair for each key of its configuration.
* `findSecretKey_of_nodup`: with distinct IDs the gateway finds the key pair that a header names.
-/

namespace Gateway

open Go

variable {URL PK SK : Type} {scheme : Scheme PK SK} {packages : Packages URL} {cfg : Config}
  {g : Server URL PK SK} {kps : KeyPairs PK SK} {configs : List (KeyConfig PK)}
  {periods : List KeyRotationPeriodWithID} {now : Int}

/-! ## The choice -/

theorem latest_spec (m : KeyRotationPeriodWithID) (keys : List KeyRotationPeriodWithID) :
    latest m keys ∈ m :: keys ∧
      ∀ k ∈ m :: keys, k.period.activeFrom ≤ (latest m keys).period.activeFrom := by
  induction keys generalizing m with
  | nil => simp [latest]
  | cons k keys ih =>
    -- the loop goes on with the later one of `m` and `k`
    have hstep : latest m (k :: keys) =
        latest (if m.period.activeFrom < k.period.activeFrom then k else m) keys := rfl
    rw [hstep]
    split
    · next hlt =>
      obtain ⟨hmem, hmax⟩ := ih k
      have hk := hmax k List.mem_cons_self
      refine ⟨List.mem_cons_of_mem m hmem, List.forall_mem_cons.2 ⟨?_, hmax⟩⟩
      omega
    · next hge =>
      obtain ⟨hmem, hmax⟩ := ih m
      obtain ⟨hm, hkeys⟩ := List.forall_mem_cons.1 hmax
      refine ⟨?_, List.forall_mem_cons.2 ⟨hm, List.forall_mem_cons.2 ⟨?_, hkeys⟩⟩⟩
      · rcases List.mem_cons.1 hmem with heq | hmem
        · rw [heq]
          exact List.mem_cons_self
        · exact List.mem_cons_of_mem m (List.mem_cons_of_mem k hmem)
      · omega

/-- Without an active period there is no choice; otherwise the one that began last decides. -/
theorem desiredKeyConfig_cases (now : Int) (configs : List (KeyConfig PK))
    (periods : List KeyRotationPeriodWithID) :
    (∀ k ∈ periods, k.period.isActive now = false) ∧
        desiredKeyConfig now configs periods = .error noActiveKeys ∨
      ∃ k ∈ periods, k.period.isActive now = true ∧
        (∀ k' ∈ periods, k'.period.isActive now = true →
          k'.period.activeFrom ≤ k.period.activeFrom) ∧
        ∀ config, configs.find? (·.keyID == k.keyID) = some config →
          desiredKeyConfig now configs periods = .ok config := by
  unfold desiredKeyConfig
  split
  · next hnil =>
    refine .inl ⟨fun k hk => ?_, rfl⟩
    simpa using List.filter_eq_nil_iff.1 hnil k hk
  · next key validKeys hvalid =>
    obtain ⟨hmem, hmax⟩ := latest_spec key validKeys
    rw [← hvalid] at hmem hmax
    obtain ⟨hperiod, hactive⟩ := List.mem_filter.1 hmem
    refine .inr ⟨_, hperiod, hactive, fun k hk ha => hmax k (List.mem_filter.2 ⟨hk, ha⟩), ?_⟩
    intro config hconfig
    simp only [hconfig]

/-! ## The key pairs -/

/-- The key pair that the gateway has for a key. -/
def Key.keyPair (scheme : Scheme PK SK) (key : Key) : ExpiringKeyPair PK SK :=
  generateKeyPair scheme key.id ((Hex.decodeString key.seed).toOption.getD []) key.activeFrom
    key.activeUntil

theorem keyPairs_eq_map (hg : newGateway scheme packages cfg = .ok g) :
    g.keyPairs = cfg.keys.map (Key.keyPair scheme) := by
  obtain ⟨hlen, hkeys⟩ := keyPairsOf_eq_ok (keyPairsOf_of_newGateway hg)
  refine List.ext_getElem (by rw [hlen, List.length_map]) fun i hi _ => ?_
  have hi' : i < cfg.keys.length := hlen ▸ hi
  obtain ⟨seed, hseed, hkp⟩ := hkeys i cfg.keys[i] (List.getElem?_eq_getElem hi')
  rw [List.getElem_map, Key.keyPair, hseed]
  exact Option.some.inj ((List.getElem?_eq_getElem hi).symm.trans hkp)

theorem find?_config (hids : (kps.map (·.keyPair.keyConfig.keyID)).Nodup)
    (hconfigs : configs.Perm (kps.map (·.keyPair.keyConfig))) {kp : ExpiringKeyPair PK SK}
    (hkp : kp ∈ kps) :
    configs.find? (·.keyID == kp.keyPair.keyConfig.keyID) = some kp.keyPair.keyConfig := by
  have hmem : kp.keyPair.keyConfig ∈ configs :=
    hconfigs.mem_iff.2 (List.mem_map.2 ⟨kp, hkp, rfl⟩)
  have hsome : (configs.find? (·.keyID == kp.keyPair.keyConfig.keyID)).isSome :=
    List.find?_isSome.2 ⟨_, hmem, by simp⟩
  obtain ⟨config, hconfig⟩ := Option.isSome_iff_exists.1 hsome
  obtain ⟨kp', hkp', rfl⟩ :=
    List.mem_map.1 (hconfigs.mem_iff.1 (List.mem_of_find?_eq_some hconfig))
  have hid : kp'.keyPair.keyConfig.keyID = kp.keyPair.keyConfig.keyID := by
    simpa using List.find?_some hconfig
  rw [hconfig, List.inj_on_of_nodup_map hids hkp' hkp hid]

theorem findSecretKey_of_nodup (hids : (kps.map (·.keyPair.keyConfig.keyID)).Nodup)
    {kp : ExpiringKeyPair PK SK} (hkp : kp ∈ kps) (hactive : kp.period.isActive now = true)
    {header : RequestHeader} (hfits : kp.keyPair.keyConfig.Fits header) :
    kps.findSecretKey scheme now header = .ok (some kp.keyPair.secretKey) := by
  obtain ⟨i, hi, rfl⟩ := List.getElem_of_mem hkp
  refine findLoop_of_ne (List.getElem?_eq_getElem hi) hactive hfits (fun j kp' hj hkp' => ?_) none
  obtain ⟨hj', rfl⟩ := List.getElem?_eq_some_iff.1 hkp'
  have hne := List.pairwise_iff_getElem.1 (List.pairwise_map.1 hids) j i hj' hi hj
  rw [hfits.1]
  exact hne.symm

/-! ## The client and the gateway -/

/-- A client that knows the keys of a gateway with distinct IDs chooses the active key that began
last, and until this key expires the gateway opens what the client seals to it. -/
theorem desiredKeyConfig_opens (hg : newGateway scheme packages cfg = .ok g)
    (hids : (cfg.keys.map (·.id)).Nodup) (hpublished : Published g.keyPairs configs periods)
    (now : Int) : Chooses scheme cfg g now (desiredKeyConfig now configs periods) := by
  have hkeys := keyPairs_eq_map hg
  have hnodup : (g.keyPairs.map (·.keyPair.keyConfig.keyID)).Nodup := by
    rw [hkeys, List.map_map]
    exact hids
  -- the period of every key is published
  have hperiods : ∀ key ∈ cfg.keys, ⟨key.period, key.id⟩ ∈ periods := fun key hkey =>
    hpublished.periods.mem_iff.2
      (List.mem_map.2 ⟨key.keyPair scheme, hkeys ▸ List.mem_map_of_mem hkey, rfl⟩)
  rcases desiredKeyConfig_cases now configs periods with
    ⟨hnone, herr⟩ | ⟨k, hk, hactive, hmax, hchoice⟩
  · exact .inl ⟨fun key hkey => hnone _ (hperiods key hkey), herr⟩
  · obtain ⟨kp, hkp, rfl⟩ := List.mem_map.1 (hpublished.periods.mem_iff.1 hk)
    have hconfig := hchoice _ (find?_config hnodup hpublished.configs hkp)
    obtain ⟨key, hkey, rfl⟩ := List.mem_map.1 (hkeys ▸ hkp)
    refine .inr ⟨key, hkey, hactive, fun key' hkey' ha => hmax _ (hperiods key' hkey') ha,
      _, hconfig, rfl, fun now' header hle huntil hfits => ?_⟩
    have hstill : key.period.isActive now' = true := by
      have hfrom : key.activeFrom < now := by
        rw [Period.isActive, Bool.and_eq_true] at hactive
        exact of_decide_eq_true hactive.1
      show Period.isActive ⟨key.activeFrom, key.activeUntil⟩ now' = true
      simp only [Period.isActive, Period.isExpired, Bool.and_eq_true, decide_eq_true_eq,
        Bool.not_eq_true', decide_eq_false_iff_not]
      omega
    exact ⟨_, findSecretKey_of_nodup hnodup hkp hstill hfits, _, rfl⟩

/-- Three keys that follow each other. -/
def rotatedKeys : Config :=
  ⟨[⟨0, Hex.encodeToString [0xab], 0, 10⟩, ⟨1, Hex.encodeToString [0xcd], 4, 14⟩,
    ⟨2, Hex.encodeToString [0xef], 8, 18⟩], [], []⟩

def rotatedServer : Server Bytes Bytes Bytes :=
  ⟨[], [], [generateKeyPair seedScheme 0 [0xab] 0 10, generateKeyPair seedScheme 1 [0xcd] 4 14,
    generateKeyPair seedScheme 2 [0xef] 8 18]⟩

/-- The choice at the time 5, when the third key is not active yet. -/
def rotatedChoice : Except Err (KeyConfig Bytes) :=
  desiredKeyConfig 5 (rotatedServer.keyPairs.map (·.keyPair.keyConfig))
    (rotatedServer.keyPairs.map fun kp => ⟨kp.period, kp.keyPair.keyConfig.keyID⟩)

theorem desiredKeyConfig_opens_rotated :
    rotatedChoice.map (·.keyID) = .ok 1 ∧
      Chooses seedScheme rotatedKeys rotatedServer 5 rotatedChoice := by
  have hg : newGateway seedScheme packagesOk rotatedKeys = .ok rotatedServer := rfl
  exact ⟨rfl, desiredKeyConfig_opens hg (by decide) ⟨.refl _, .refl _⟩ 5⟩

end Gateway
