import OpenPCC.Lib.Runs
import OpenPCC.Transparency.BundleStore

/-!
# Keys of bundles

* `newStatementBundleKey_eq_ok`: which statements have a key.
* `bundleKey_eq`: the segments of a key. Hashes and digests are hexadecimal, so that they contain
  neither `/` nor `_`.
* `bundleKey_inj`: the parts of a key can be read back from it.
* `ordered_eq_iff`: the subjects in order are determined by the set of subjects.
* `addressed_stored`: in a run every bundle stands at the key of what it was signed for.

`toyPackages` are packages to evaluate the model with.
-/

namespace Transparency

open Go

variable {Predicate : Type} {P : Packages Predicate} {s s' : Statement Predicate}

/-! ## Hexadecimal texts -/

/-- A text of hexadecimal digits. -/
def IsHex (t : Bytes) : Prop := ∀ c ∈ t, ∃ n, Hex.value c = some n

theorem IsHex.not_mem {t : Bytes} (h : IsHex t) {c : UInt8} (hc : Hex.value c = none) : c ∉ t := by
  intro hmem
  obtain ⟨n, hn⟩ := h c hmem
  rw [hc] at hn
  cases hn

theorem isHex_encodeToString (b : Bytes) : IsHex (Hex.encodeToString b) :=
  Hex.value_of_decodeString (Hex.decodeString_encodeToString b)

theorem isHex_hexHash (P : Packages Predicate) (b : Bytes) : IsHex (hexHash P b) :=
  isHex_encodeToString _

theorem length_hexHash (P : Packages Predicate) (b : Bytes) : (hexHash P b).length = 24 := by
  rw [hexHash, Hex.length_encodeToString, List.length_take, Vector.length_toList]
  rfl

theorem StatementSubject.Digested.length {x : StatementSubject} (h : x.Digested) :
    x.hexSha256Digest.length = 64 := by
  obtain ⟨hash, hdecode, hlen⟩ := h
  rw [Hex.length_of_decodeString hdecode, hlen]

theorem StatementSubject.Digested.isHex {x : StatementSubject} (h : x.Digested) :
    IsHex x.hexSha256Digest := by
  obtain ⟨hash, hdecode, -⟩ := h
  exact Hex.value_of_decodeString hdecode

/-! ## Subjects in order -/

instance : Std.Total fun a b : StatementSubject => a.name ≤ b.name :=
  ⟨fun _ _ => Std.le_total⟩

instance : IsTrans StatementSubject fun a b => a.name ≤ b.name :=
  ⟨fun _ _ _ => Std.le_trans⟩

theorem mem_ordered {x : StatementSubject} : x ∈ s.ordered ↔ x ∈ s.subject :=
  (List.perm_insertionSort _ _).mem_iff

/-- Names are unique, so that the order of the subjects in the statement does not matter. -/
theorem ordered_eq_iff (h : s.Valid P) (h' : s'.Valid P) :
    s.ordered = s'.ordered ↔ ∀ x, x ∈ s.subject ↔ x ∈ s'.subject := by
  constructor
  · intro hordered x
    rw [← mem_ordered, hordered, mem_ordered]
  · intro hmem
    refine (Runs.insertionSort_eq_iff fun a ha b hb hab hba => ?_).2
      ((List.perm_ext_iff_of_nodup h.nodup.of_map h'.nodup.of_map).2 hmem)
    exact List.inj_on_of_nodup_map h.nodup ha ((hmem b).2 hb) (Std.le_antisymm hab hba)

theorem Statement.Valid.digested_ordered (h : s.Valid P) : ∀ x ∈ s.ordered, x.Digested :=
  fun x hx => h.digested x (mem_ordered.1 hx)

theorem hexDigests_ne_nil (h : s.Valid P) : hexDigests s.ordered ≠ [] := by
  obtain ⟨x, hx⟩ := List.exists_mem_of_ne_nil _ h.ne_nil
  exact List.ne_nil_of_mem (List.mem_map_of_mem (mem_ordered.2 hx))

theorem hexDigests_block (h : s.Valid P) :
    ∀ d ∈ hexDigests s.ordered, d.length = 24 ∧ IsHex d := by
  intro d hd
  obtain ⟨x, hx, rfl⟩ := List.mem_map.1 hd
  have hdigested := h.digested_ordered x hx
  refine ⟨?_, fun c hc => hdigested.isHex c (List.mem_of_mem_take hc)⟩
  rw [List.length_take, hdigested.length]
  rfl

/-! ## The parts of a key -/

theorem newStatementBundleKey_eq_ok {k : Bytes} :
    newStatementBundleKey P (some s) = .ok k ↔
      Statement.validate P (some s) = .ok () ∧ s.subject.length ≤ maxCacheableSubjects ∧
        ∃ predicateJSON, P.marshal s.predicate = .ok predicateJSON ∧
          k = s.bundleKey P predicateJSON := by
  dsimp only [newStatementBundleKey]
  cases Statement.validate P (some s) with
  | error err => simp
  | ok u =>
    dsimp only
    by_cases hmany : s.subject.length > maxCacheableSubjects
    · rw [if_pos hmany]
      simp [Nat.not_le.2 hmany]
    · rw [if_neg hmany]
      cases P.marshal s.predicate with
      | error err => simp
      | ok predicateJSON => simp [Nat.not_lt.1 hmany, eq_comm]

/-- The last segment of a key, without its suffix. -/
def hexDigestsPart (s : Statement Predicate) : Bytes := [95].intercalate (hexDigests s.ordered)

theorem hexDigestsPart_inj (h : s.Valid P) (h' : s'.Valid P)
    (heq : hexDigestsPart s = hexDigestsPart s') :
    hexDigests s.ordered = hexDigests s'.ordered := by
  have hsep : ∀ {s : Statement Predicate}, s.Valid P → ∀ d ∈ hexDigests s.ordered, 95 ∉ d :=
    fun hs d hd => (hexDigests_block hs d hd).2.not_mem (by decide)
  rw [← List.splitOn_intercalate 95 (hsep h) (hexDigests_ne_nil h),
    ← List.splitOn_intercalate 95 (hsep h') (hexDigests_ne_nil h')]
  exact congrArg (List.splitOn 95) heq

theorem bundleKey_eq (s : Statement Predicate) (predicateJSON : Bytes) :
    s.bundleKey P predicateJSON =
      utf8 "statements".toList ++ 47 :: (hexHash P s.predicateType ++
        47 :: (hexHash P (s.idInput predicateJSON) ++
          47 :: (hexDigestsPart s ++ utf8 ".pb".toList))) := by
  have hfirst : utf8 "statements/".toList = utf8 "statements".toList ++ [47] := rfl
  have hslash : utf8 "/".toList = [47] := rfl
  have hsep : utf8 "_".toList = [95] := rfl
  simp only [Statement.bundleKey, hexDigestsPart, hfirst, hslash, hsep, List.append_assoc,
    List.cons_append, List.nil_append]

theorem bundleKey_inj (h : s.Valid P) (h' : s'.Valid P) {predicateJSON predicateJSON' : Bytes}
    (heq : s.bundleKey P predicateJSON = s'.bundleKey P predicateJSON') :
    hexHash P s.predicateType = hexHash P s'.predicateType ∧
      hexHash P (s.idInput predicateJSON) = hexHash P (s'.idInput predicateJSON') ∧
      hexDigests s.ordered = hexDigests s'.ordered := by
  rw [bundleKey_eq, bundleKey_eq] at heq
  have hrest := List.append_cancel_left heq
  obtain ⟨htype, hrest⟩ := List.append_inj (List.cons.inj hrest).2
    (by rw [length_hexHash, length_hexHash])
  obtain ⟨hid, hrest⟩ := List.append_inj (List.cons.inj hrest).2
    (by rw [length_hexHash, length_hexHash])
  exact ⟨htype, hid, hexDigestsPart_inj h h' (List.append_cancel_right (List.cons.inj hrest).2)⟩

theorem bundleKey_congr {predicateJSON : Bytes} (htype : s.predicateType = s'.predicateType)
    (hjoined : joined s.ordered = joined s'.ordered)
    (hdigests : hexDigests s.ordered = hexDigests s'.ordered) :
    s.bundleKey P predicateJSON = s'.bundleKey P predicateJSON := by
  simp only [Statement.bundleKey, Statement.idInput, htype, hjoined, hdigests]

/-! ## Runs -/

/-- The key at which a bundle stands. -/
def Content.HasKey (P : Packages Predicate) : Content Predicate → Bytes → Prop
  | .data d, k => k = dataKey P d
  | .statement s, k => newStatementBundleKey P (some s) = .ok k

variable {store : Store Predicate}

theorem findByKey_eq_ok {env : CallEnv} {k : Bytes} {b : Bundle Predicate}
    (h : store.findByKey env k = .ok b) : store.lookup k = some b := by
  unfold Store.findByKey at h
  split at h
  · cases h
  · cases h
  · next hlookup =>
    cases h
    exact hlookup

theorem insertBundle_eq_ok {env : CallEnv} {k : Bytes} {b : Bundle Predicate}
    {store' : Store Predicate} (h : store.insertBundle env k b = .ok store') :
    store' = store.insert k b := by
  unfold Store.insertBundle at h
  split at h
  · cases h
  · cases h
    rfl

theorem signAndInsert_cases (store : Store Predicate) (env : CallEnv) (k : Bytes)
    (content : Content Predicate) :
    (∃ err, signAndInsert store env k content = (.error err, store)) ∨
      ∃ bytes, signAndInsert store env k content =
        (.ok ⟨bytes, content⟩, store.insert k ⟨bytes, content⟩) := by
  unfold signAndInsert
  cases env.signed with
  | error err => exact .inl ⟨_, rfl⟩
  | ok bytes =>
    dsimp only
    cases hinsert : store.insertBundle env k ⟨bytes, content⟩ with
    | error err => exact .inl ⟨_, rfl⟩
    | ok store' =>
      rw [insertBundle_eq_ok hinsert]
      exact .inr ⟨bytes, rfl⟩

theorem signStatement_cases (P : Packages Predicate) (store : Store Predicate) (env : CallEnv)
    (statement : Option (Statement Predicate)) :
    (∃ k err, signStatement P store env statement = ((k, .error err), store)) ∨
      ∃ s k, statement = some s ∧ newStatementBundleKey P (some s) = .ok k ∧
        ((∃ b, store.lookup k = some b ∧
            signStatement P store env statement = ((k, .ok b), store)) ∨
          ∃ bytes, signStatement P store env statement =
            ((k, .ok ⟨bytes, .statement s⟩), store.insert k ⟨bytes, .statement s⟩)) := by
  cases statement with
  | none => exact .inl ⟨_, _, rfl⟩
  | some s =>
    dsimp only [signStatement]
    cases hkey : newStatementBundleKey P (some s) with
    | error err => exact .inl ⟨_, _, rfl⟩
    | ok k =>
      dsimp only
      cases hfind : store.findByKey env k with
      | error err =>
        cases err with
        | notFound =>
          dsimp only
          obtain ⟨err, hsign⟩ | ⟨bytes, hsign⟩ := signAndInsert_cases store env k (.statement s)
          · rw [hsign]
            exact .inl ⟨_, _, rfl⟩
          · rw [hsign]
            exact .inr ⟨s, k, rfl, hkey, .inr ⟨bytes, rfl⟩⟩
        | other err => exact .inl ⟨_, _, rfl⟩
      | ok b => exact .inr ⟨s, k, rfl, hkey, .inl ⟨b, findByKey_eq_ok hfind, rfl⟩⟩

/-- The store is left as it is, or a bundle is stored at its key, of the statement if it is of
one. -/
def Stores (P : Packages Predicate) (statement : Option (Statement Predicate))
    (store store' : Store Predicate) : Prop :=
  store' = store ∨
    ∃ k b, store' = store.insert k b ∧ b.content.HasKey P k ∧
      ∀ s, b.content = .statement s → statement = some s

theorem Stores.insert_statement {k : Bytes} (hkey : newStatementBundleKey P (some s) = .ok k)
    (bytes : Bytes) : Stores P (some s) store (store.insert k ⟨bytes, .statement s⟩) := by
  refine .inr ⟨k, ⟨bytes, .statement s⟩, rfl, hkey, fun s' hs' => ?_⟩
  cases hs'
  rfl

theorem sign_stores (P : Packages Predicate) (store : Store Predicate) (data : Bytes)
    (env : CallEnv) : Stores P none store (sign P store data env).2 := by
  unfold sign
  split
  · obtain ⟨err, hsign⟩ | ⟨bytes, hsign⟩ :=
      signAndInsert_cases store env (dataKey P data) (.data data)
    · rw [hsign]
      exact .inl rfl
    · rw [hsign]
      exact .inr ⟨_, _, rfl, rfl, nofun⟩
  · exact .inl rfl
  · exact .inl rfl

theorem signStatement_stores (P : Packages Predicate) (store : Store Predicate) (env : CallEnv)
    (statement : Option (Statement Predicate)) :
    Stores P statement store (signStatement P store env statement).2 := by
  obtain ⟨k, err, hsign⟩ | ⟨s, k, rfl, hkey, ⟨b, -, hsign⟩ | ⟨bytes, hsign⟩⟩ :=
    signStatement_cases P store env statement
  · rw [hsign]
    exact .inl rfl
  · rw [hsign]
    exact .inl rfl
  · rw [hsign]
    exact Stores.insert_statement hkey bytes

theorem importStatementBundle_stores (P : Packages Predicate) (store : Store Predicate)
    (b : Bytes) (s : Statement Predicate) (env : CallEnv) :
    Stores P (some s) store (importStatementBundle P store b (.ok s) env).2 := by
  dsimp only [importStatementBundle]
  cases hkey : newStatementBundleKey P (some s) with
  | error err => exact .inl rfl
  | ok k =>
    dsimp only
    split
    · cases hinsert : store.insertBundle env k ⟨b, .statement s⟩ with
      | error err => exact .inl rfl
      | ok store' =>
        rw [insertBundle_eq_ok hinsert]
        exact Stores.insert_statement hkey b
    · exact .inl rfl
    · split_ifs <;> exact .inl rfl

theorem exec_stores (P : Packages Predicate) (store : Store Predicate) (c : Call Predicate) :
    Stores P c.statement? store (c.exec P store) := by
  cases c with
  | sign data env => exact sign_stores P store data env
  | signStatement statement env => exact signStatement_stores P store env statement
  | importBundle b verified env =>
    cases verified with
    | error err => exact .inl rfl
    | ok s => exact importStatementBundle_stores P store b s env

/-- Every bundle stands at its key, and those of statements are of the statements in `S`. -/
def Addressed (P : Packages Predicate) (S : Statement Predicate → Prop)
    (store : Store Predicate) : Prop :=
  ∀ k b, store.lookup k = some b →
    b.content.HasKey P k ∧ ∀ s, b.content = .statement s → S s

theorem Addressed.exec {S : Statement Predicate → Prop} (h : Addressed P S store)
    {c : Call Predicate} (hc : ∀ s, c.statement? = some s → S s) :
    Addressed P S (c.exec P store) := by
  obtain hexec | ⟨k, b, hexec, hkey, hcontent⟩ := exec_stores P store c
  · rw [hexec]
    exact h
  · rw [hexec]
    intro k' b' hlookup
    by_cases hk : k' = k
    · subst hk
      rw [AList.lookup_insert] at hlookup
      cases hlookup
      exact ⟨hkey, fun s hs => hc s (hcontent s hs)⟩
    · rw [AList.lookup_insert_ne hk] at hlookup
      exact h k' b' hlookup

theorem addressed_empty (S : Statement Predicate → Prop) : Addressed P S ∅ := by
  intro k b hlookup
  rw [AList.lookup_empty] at hlookup
  cases hlookup

/-- The statements that the calls of a run are about. -/
def statements (calls : List (Call Predicate)) : List (Statement Predicate) :=
  calls.filterMap Call.statement?

theorem addressed_stored (P : Packages Predicate) (calls : List (Call Predicate)) :
    Addressed P (· ∈ statements calls) (stored P calls) := by
  have hrun : ∀ (rest : List (Call Predicate)) (store : Store Predicate),
      Addressed P (· ∈ statements calls) store → (∀ c ∈ rest, c ∈ calls) →
        Addressed P (· ∈ statements calls) (rest.foldl (Call.exec P) store) := by
    intro rest
    induction rest with
    | nil => exact fun store h _ => h
    | cons c rest ih =>
      intro store h hmem
      obtain ⟨hc, hrest⟩ := List.forall_mem_cons.1 hmem
      exact ih _ (h.exec fun s hs => List.mem_filterMap.2 ⟨c, hc, hs⟩) hrest
  exact hrun calls ∅ (addressed_empty _) fun c hc => hc

/-! ## With digests of one letter -/

/-- Every URL is accepted, the predicate is empty, and the hash of a text is its length. -/
def toyPackages : Packages Unit where
  parse := fun _ => .ok ⟨utf8 "https".toList, utf8 "a".toList⟩
  marshal := fun _ => .ok (utf8 "{}".toList)
  sum256 := fun b => Vector.replicate 32 (UInt8.ofNat b.length)

/-- 64 times the digit `d`. -/
def toyDigest (d : Char) : Bytes := utf8 (List.replicate 64 d)

def toySubject (name : String) (d : Char) : StatementSubject :=
  ⟨utf8 name.toList, Finmap.singleton (utf8 "sha256".toList) (toyDigest d)⟩

def toyStatement (subject : List StatementSubject) : Statement Unit :=
  ⟨subject, utf8 "https://a/p".toList, ()⟩

/-- The environment of a call that finds no fault. -/
def signedAs (bytes : Bytes) : CallEnv := ⟨none, .ok bytes, none⟩

def toyOne : Statement Unit := toyStatement [toySubject "one" '0']

end Transparency
