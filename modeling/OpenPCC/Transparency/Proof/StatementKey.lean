import OpenPCC.Lib.Json
import OpenPCC.Transparency.Proof.Key

/-!
# What a key identifies

The key of a statement is made from the hash of a text in which names, digests, predicate type and
predicate follow each other. If hashes do not collide, equal keys mean equal texts, and the
predicate can be told from the rest, since it is the text of a map (`same_key_iff`). Names and
digests cannot be told apart in this way: there may be another way to cut the same text
(`Shifted`). And only the sha256 digests are in it (`OthersDiffer`). For all other pairs of
statements keys are equal just for the same statement, and in runs without such pairs
`SignStatement` returns only bundles of the statement (`keys_identify`).
-/

namespace Transparency

open Go

variable {Predicate : Type} {P : Packages Predicate} {s s' : Statement Predicate}

/-- The same statement: it has the same subjects with the same digests, in any order, and the same
predicate. -/
structure Same (P : Packages Predicate) (s s' : Statement Predicate) : Prop where
  subject : ∀ x, x ∈ s.subject ↔ x ∈ s'.subject
  predicateType : s.predicateType = s'.predicateType
  predicate : ∃ json, P.marshal s.predicate = .ok json ∧ P.marshal s'.predicate = .ok json

/-- The names with their digests are the same text, cut at other places. -/
structure Shifted (P : Packages Predicate) (s s' : Statement Predicate) : Prop where
  predicateType : s.predicateType = s'.predicateType
  predicate : ∃ json, P.marshal s.predicate = .ok json ∧ P.marshal s'.predicate = .ok json
  joined : joined s.ordered = joined s'.ordered
  hexDigests : hexDigests s.ordered = hexDigests s'.ordered
  names : s.ordered.map (·.name) ≠ s'.ordered.map (·.name)

/-- Only digests other than sha256 differ. -/
structure OthersDiffer (P : Packages Predicate) (s s' : Statement Predicate) : Prop where
  predicateType : s.predicateType = s'.predicateType
  predicate : ∃ json, P.marshal s.predicate = .ok json ∧ P.marshal s'.predicate = .ok json
  names : s.ordered.map (·.name) = s'.ordered.map (·.name)
  sha256 : s.ordered.map (·.hexSha256Digest) = s'.ordered.map (·.hexSha256Digest)
  digests : s.ordered.map (·.digest) ≠ s'.ordered.map (·.digest)

/-- The texts that are hashed for the key of a statement. -/
def Statement.texts (P : Packages Predicate) (s : Statement Predicate) : Set Bytes :=
  {t | t = s.predicateType ∨ ∃ json, P.marshal s.predicate = .ok json ∧ t = s.idInput json}

theorem Same.refl {k : Bytes} (h : newStatementBundleKey P (some s) = .ok k) : Same P s s := by
  obtain ⟨-, -, json, hjson, -⟩ := newStatementBundleKey_eq_ok.1 h
  exact ⟨fun _ => Iff.rfl, rfl, json, hjson, hjson⟩

/-! ## Subjects -/

theorem joined_cons (x : StatementSubject) (l : List StatementSubject) :
    joined (x :: l) = x.name ++ (x.hexSha256Digest ++ joined l) := by
  rw [joined, List.flatMap_cons, List.append_assoc]
  rfl

theorem joined_eq (l : List StatementSubject) :
    joined l = (List.zipWith (· ++ ·) (l.map (·.name)) (l.map (·.hexSha256Digest))).flatten := by
  rw [List.zipWith_map, List.zipWith_self]
  rfl

theorem hexDigests_eq (l : List StatementSubject) :
    hexDigests l = (l.map (·.hexSha256Digest)).map (List.take (hashLen * 2)) := by
  rw [List.map_map]
  rfl

theorem joined_inj {l l' : List StatementSubject} (hl : ∀ x ∈ l, x.Digested)
    (hl' : ∀ x ∈ l', x.Digested) (hnames : l.map (·.name) = l'.map (·.name))
    (hjoined : joined l = joined l') : l.map (·.hexSha256Digest) = l'.map (·.hexSha256Digest) := by
  induction l generalizing l' with
  | nil =>
    obtain rfl := List.map_eq_nil_iff.1 hnames.symm
    rfl
  | cons x l ih =>
    cases l' with
    | nil => cases hnames
    | cons x' l' =>
      obtain ⟨hx, hl⟩ := List.forall_mem_cons.1 hl
      obtain ⟨hx', hl'⟩ := List.forall_mem_cons.1 hl'
      have hname : x.name = x'.name := (List.cons.inj hnames).1
      have hnames := (List.cons.inj hnames).2
      rw [joined_cons, joined_cons, hname] at hjoined
      obtain ⟨hdigest, hrest⟩ := List.append_inj (List.append_cancel_left hjoined)
        (by rw [hx.length, hx'.length])
      rw [List.map_cons, List.map_cons, hdigest, ih hl hl' hnames hrest]

theorem subjects_ext {l l' : List StatementSubject} (hnames : l.map (·.name) = l'.map (·.name))
    (hdigests : l.map (·.digest) = l'.map (·.digest)) : l = l' := by
  induction l generalizing l' with
  | nil => exact (List.map_eq_nil_iff.1 hnames.symm).symm
  | cons x l ih =>
    cases l' with
    | nil => cases hnames
    | cons x' l' =>
      obtain ⟨hname, hnames⟩ := List.cons.inj hnames
      obtain ⟨hdigest, hdigests⟩ := List.cons.inj hdigests
      have hx : x = x' := by
        cases x
        cases x'
        cases hname
        cases hdigest
        rfl
      rw [hx, ih hnames hdigests]

/-! ## Equal keys -/

section
variable {T : Set Bytes} (hfree : T.InjOn (hexHash P))
  (hmarshal : ∀ p t, P.marshal p = .ok t → Json.IsMap t)

include hfree hmarshal

/-- If hashes do not collide, equal keys are made from equal parts. -/
theorem same_key_iff (hv : Statement.validate P (some s) = .ok ())
    (hv' : Statement.validate P (some s') = .ok ())
    (hmax : s.subject.length ≤ maxCacheableSubjects)
    (hmax' : s'.subject.length ≤ maxCacheableSubjects) (hT : s.texts P ⊆ T) (hT' : s'.texts P ⊆ T) :
    (∃ k, newStatementBundleKey P (some s) = .ok k ∧ newStatementBundleKey P (some s') = .ok k) ↔
      (∃ json, P.marshal s.predicate = .ok json ∧ P.marshal s'.predicate = .ok json) ∧
        s.predicateType = s'.predicateType ∧ joined s.ordered = joined s'.ordered ∧
        hexDigests s.ordered = hexDigests s'.ordered := by
  constructor
  · rintro ⟨k, hk, hk'⟩
    obtain ⟨-, -, json, hjson, rfl⟩ := newStatementBundleKey_eq_ok.1 hk
    obtain ⟨-, -, json', hjson', hkey⟩ := newStatementBundleKey_eq_ok.1 hk'
    obtain ⟨htype, hid, hdigests⟩ := bundleKey_inj (Statement.valid_of_validate hv)
      (Statement.valid_of_validate hv') hkey
    have htype := hfree (hT (.inl rfl)) (hT' (.inl rfl)) htype
    have hid := hfree (hT (.inr ⟨json, hjson, rfl⟩)) (hT' (.inr ⟨json', hjson', rfl⟩)) hid
    obtain ⟨hbefore, rfl⟩ := Json.isMap_append_inj (hmarshal _ _ hjson) (hmarshal _ _ hjson') hid
    rw [htype] at hbefore
    exact ⟨⟨json, hjson, hjson'⟩, htype, List.append_cancel_right hbefore, hdigests⟩
  · rintro ⟨⟨json, hjson, hjson'⟩, htype, hjoined, hdigests⟩
    have hkey : s.bundleKey P json = s'.bundleKey P json :=
      bundleKey_congr htype hjoined hdigests
    exact ⟨s.bundleKey P json, newStatementBundleKey_eq_ok.2 ⟨hv, hmax, json, hjson, rfl⟩,
      newStatementBundleKey_eq_ok.2 ⟨hv', hmax', json, hjson', hkey⟩⟩

/-- Keys identify a pair of statements just if neither slip is possible for it. -/
theorem key_iff_same (hv : Statement.validate P (some s) = .ok ())
    (hv' : Statement.validate P (some s') = .ok ())
    (hmax : s.subject.length ≤ maxCacheableSubjects)
    (hmax' : s'.subject.length ≤ maxCacheableSubjects) (hT : s.texts P ⊆ T) (hT' : s'.texts P ⊆ T) :
    ((∃ k, newStatementBundleKey P (some s) = .ok k ∧ newStatementBundleKey P (some s') = .ok k) ↔
        Same P s s') ↔ ¬ Shifted P s s' ∧ ¬ OthersDiffer P s s' := by
  rw [same_key_iff hfree hmarshal hv hv' hmax hmax' hT hT']
  have hvalid := Statement.valid_of_validate hv
  have hvalid' := Statement.valid_of_validate hv'
  have hordered : Same P s s' → s.ordered = s'.ordered := fun h =>
    (ordered_eq_iff hvalid hvalid').2 h.subject
  constructor
  · intro hiff
    constructor
    · intro h
      have hsame := hiff.1 ⟨h.predicate, h.predicateType, h.joined, h.hexDigests⟩
      exact h.names (by rw [hordered hsame])
    · intro h
      have hjoined : joined s.ordered = joined s'.ordered := by
        rw [joined_eq, joined_eq, h.names, h.sha256]
      have hdigests : hexDigests s.ordered = hexDigests s'.ordered := by
        rw [hexDigests_eq, hexDigests_eq, h.sha256]
      have hsame := hiff.1 ⟨h.predicate, h.predicateType, hjoined, hdigests⟩
      exact h.digests (by rw [hordered hsame])
  · rintro ⟨hshifted, hothers⟩
    constructor
    · rintro ⟨hpredicate, htype, hjoined, hdigests⟩
      have hnames : s.ordered.map (·.name) = s'.ordered.map (·.name) := by_contra fun hne =>
        hshifted ⟨htype, hpredicate, hjoined, hdigests, hne⟩
      have hsha256 := joined_inj hvalid.digested_ordered hvalid'.digested_ordered hnames hjoined
      have hall : s.ordered.map (·.digest) = s'.ordered.map (·.digest) := by_contra fun hne =>
        hothers ⟨htype, hpredicate, hnames, hsha256, hne⟩
      exact ⟨(ordered_eq_iff hvalid hvalid').1 (subjects_ext hnames hall), htype, hpredicate⟩
    · intro h
      rw [hordered h]
      exact ⟨h.predicate, h.predicateType, rfl, rfl⟩

end

/-! ## Runs -/

/-- `SignStatement` returns only bundles that were signed for the statement. -/
def Faithful (P : Packages Predicate) : Store Predicate → List (Call Predicate) → Prop
  | _, [] => True
  | store, c :: calls =>
    (∀ statement env b, c = .signStatement statement env →
      (signStatement P store env statement).1.2 = .ok b →
        ∃ s s', statement = some s ∧ b.content = .statement s' ∧ Same P s s') ∧
      Faithful P (c.exec P store) calls

theorem dataKey_ne (data json : Bytes) : dataKey P data ≠ s.bundleKey P json := by
  rw [bundleKey_eq]
  intro h
  cases (List.cons.inj h).1

theorem faithful_of_identified {store : Store Predicate} {S : List (Statement Predicate)}
    (hidentified : ∀ s ∈ S, ∀ s' ∈ S, ∀ k, newStatementBundleKey P (some s) = .ok k →
      newStatementBundleKey P (some s') = .ok k → Same P s s')
    {calls : List (Call Predicate)} (hcalls : ∀ c ∈ calls, ∀ s, c.statement? = some s → s ∈ S)
    (h : Addressed P (· ∈ S) store) : Faithful P store calls := by
  induction calls generalizing store with
  | nil => trivial
  | cons c calls ih =>
    obtain ⟨hc, hrest⟩ := List.forall_mem_cons.1 hcalls
    refine ⟨?_, ih hrest (h.exec hc)⟩
    rintro statement env b rfl hb
    obtain ⟨k, err, hsign⟩ | ⟨s, k, rfl, hkey, ⟨b', hlookup, hsign⟩ | ⟨bytes, hsign⟩⟩ :=
      signStatement_cases P store env statement
    · rw [hsign] at hb
      cases hb
    · rw [hsign] at hb
      cases hb
      obtain ⟨hhas, hcontent⟩ := h k b hlookup
      obtain ⟨-, -, json, -, rfl⟩ := newStatementBundleKey_eq_ok.1 hkey
      cases hb' : b.content with
      | data data =>
        rw [hb'] at hhas
        exact absurd hhas.symm (dataKey_ne data json)
      | statement s' =>
        rw [hb'] at hhas
        exact ⟨s, s', rfl, rfl, hidentified s (hc s rfl) s' (hcontent s' hb') _ hkey hhas⟩
    · rw [hsign] at hb
      cases hb
      exact ⟨s, s, rfl, rfl, Same.refl hkey⟩

/-- If hashes do not collide, keys identify exactly the pairs of statements that are neither cut in
another way nor different in other digests only; and in a run of which this holds for any two
statements `SignStatement` returns only bundles of the statement. -/
theorem keys_identify (P : Packages Predicate) {T : Set Bytes} (hfree : T.InjOn (hexHash P))
    (hmarshal : ∀ p t, P.marshal p = .ok t → Json.IsMap t) :
    (∀ s s', Statement.validate P (some s) = .ok () → Statement.validate P (some s') = .ok () →
        s.subject.length ≤ maxCacheableSubjects → s'.subject.length ≤ maxCacheableSubjects →
        s.texts P ⊆ T → s'.texts P ⊆ T →
        (((∃ k, newStatementBundleKey P (some s) = .ok k ∧
            newStatementBundleKey P (some s') = .ok k) ↔ Same P s s') ↔
          ¬ Shifted P s s' ∧ ¬ OthersDiffer P s s')) ∧
      ∀ calls : List (Call Predicate), (∀ s ∈ statements calls, s.texts P ⊆ T) →
        (∀ s ∈ statements calls, ∀ s' ∈ statements calls,
          ¬ Shifted P s s' ∧ ¬ OthersDiffer P s s') → Faithful P ∅ calls := by
  refine ⟨fun s s' hv hv' hmax hmax' hT hT' =>
    key_iff_same hfree hmarshal hv hv' hmax hmax' hT hT', fun calls hT hapart => ?_⟩
  refine faithful_of_identified (fun s hs s' hs' k hk hk' => ?_)
    (fun c hc s hs => List.mem_filterMap.2 ⟨c, hc, hs⟩) (addressed_empty _)
  obtain ⟨hv, hmax, -⟩ := newStatementBundleKey_eq_ok.1 hk
  obtain ⟨hv', hmax', -⟩ := newStatementBundleKey_eq_ok.1 hk'
  exact ((key_iff_same hfree hmarshal hv hv' hmax hmax' (hT s hs) (hT s' hs')).2
    (hapart s hs s' hs')).1 ⟨k, hk, hk'⟩

/-! ## With digests of one letter -/

theorem toyPackages_marshal (p : Unit) (t : Bytes) (h : toyPackages.marshal p = .ok t) :
    Json.IsMap t := by
  cases h
  exact .inr ⟨[], rfl, rfl⟩

def toyThree : Statement Unit := toyStatement [toySubject "three" '0']

/-- The texts that are hashed for the keys of the two. -/
def toyTexts : List Bytes :=
  [toyOne.predicateType, toyOne.idInput (utf8 "{}".toList), toyThree.idInput (utf8 "{}".toList)]

theorem toyTexts_injOn : Set.InjOn (hexHash toyPackages) {t | t ∈ toyTexts} := by
  have hall : ∀ a ∈ toyTexts, ∀ b ∈ toyTexts,
      hexHash toyPackages a = hexHash toyPackages b → a = b := by decide +kernel
  exact fun a ha b hb => hall a ha b hb

theorem texts_toyOne : toyOne.texts toyPackages ⊆ {t | t ∈ toyTexts} := by
  rintro t (rfl | ⟨json, hjson, rfl⟩)
  · exact List.mem_cons_self
  · cases hjson
    exact List.mem_cons_of_mem _ List.mem_cons_self

theorem texts_toyThree : toyThree.texts toyPackages ⊆ {t | t ∈ toyTexts} := by
  rintro t (rfl | ⟨json, hjson, rfl⟩)
  · exact List.mem_cons_self
  · cases hjson
    exact List.mem_cons_of_mem _ (List.mem_cons_of_mem _ List.mem_cons_self)

theorem apart_self (s : Statement Predicate) : ¬ Shifted P s s ∧ ¬ OthersDiffer P s s :=
  ⟨fun h => h.names rfl, fun h => h.digests rfl⟩

theorem apart_of_names (hjoined : joined s.ordered ≠ joined s'.ordered)
    (hnames : s.ordered.map (·.name) ≠ s'.ordered.map (·.name)) :
    ¬ Shifted P s s' ∧ ¬ OthersDiffer P s s' :=
  ⟨fun h => hjoined h.joined, fun h => hnames h.names⟩

/-- Statements with different names have different keys, and each is signed by itself. -/
theorem keys_identify_toy :
    ¬ (∃ k, newStatementBundleKey toyPackages (some toyOne) = .ok k ∧
        newStatementBundleKey toyPackages (some toyThree) = .ok k) ∧
      Faithful toyPackages ∅ [.signStatement (some toyOne) (signedAs [1]),
        .signStatement (some toyThree) (signedAs [2]),
        .signStatement (some toyOne) (signedAs [3])] := by
  have hjoined : joined toyOne.ordered ≠ joined toyThree.ordered := by decide +kernel
  have hnames : toyOne.ordered.map (·.name) ≠ toyThree.ordered.map (·.name) := by decide +kernel
  obtain ⟨hpair, hrun⟩ := keys_identify toyPackages toyTexts_injOn toyPackages_marshal
  constructor
  · rw [(hpair toyOne toyThree (by decide +kernel) (by decide +kernel) (by decide) (by decide)
      texts_toyOne texts_toyThree).2 (apart_of_names hjoined hnames)]
    intro hsame
    have hmem := (hsame.subject (toySubject "one" '0')).1 List.mem_cons_self
    revert hmem
    decide +kernel
  · have hstatements : ∀ s ∈ statements [.signStatement (some toyOne) (signedAs [1]),
        .signStatement (some toyThree) (signedAs [2]),
        .signStatement (some toyOne) (signedAs [3])], s = toyOne ∨ s = toyThree := by
      simp [statements, Call.statement?]
    refine hrun _ (fun s hs => ?_) (fun s hs s' hs' => ?_)
    · obtain rfl | rfl := hstatements s hs
      · exact texts_toyOne
      · exact texts_toyThree
    · obtain rfl | rfl := hstatements s hs <;> obtain rfl | rfl := hstatements s' hs'
      · exact apart_self toyOne
      · exact apart_of_names hjoined hnames
      · exact apart_of_names hjoined.symm hnames.symm
      · exact apart_self toyThree

/-- A second statement with the key of the first is given its bundle. -/
theorem not_faithful {k : Bytes} (hkey : newStatementBundleKey P (some s) = .ok k)
    (hkey' : newStatementBundleKey P (some s') = .ok k) (hsame : ¬ Same P s' s) (a b : Bytes) :
    ¬ Faithful P ∅ [.signStatement (some s) (signedAs a),
      .signStatement (some s') (signedAs b)] := by
  rintro ⟨-, hsecond, -⟩
  have hexec : Call.exec P ∅ (.signStatement (some s) (signedAs a)) =
      AList.insert k ⟨a, .statement s⟩ ∅ := by
    simp [Call.exec, signStatement, hkey, Store.findByKey, signedAs, signAndInsert,
      Store.insertBundle]
  have hfind : Store.findByKey (AList.insert k ⟨a, .statement s⟩ ∅) (signedAs b) k =
      .ok ⟨a, .statement s⟩ := by
    rw [Store.findByKey, AList.lookup_insert]
    rfl
  have hreturned : (signStatement P (Call.exec P ∅ (.signStatement (some s) (signedAs a)))
      (signedAs b) (some s')).1.2 = .ok ⟨a, .statement s⟩ := by
    rw [hexec]
    simp only [signStatement, hkey', hfind]
  obtain ⟨s₁, s₂, hs₁, hs₂, h⟩ := hsecond (some s') (signedAs b) _ rfl hreturned
  cases hs₁
  cases hs₂
  exact hsame h

/-- The names `a` and `b00..0c` with the digests of `0` and `1`. -/
def toyCut : Statement Unit :=
  toyStatement [toySubject "a" '0',
    ⟨utf8 "b".toList ++ toyDigest '0' ++ utf8 "c".toList, (toySubject "" '1').digest⟩]

/-- The names `a00..0b` and `c` with the same digests. -/
def toyRecut : Statement Unit :=
  toyStatement [⟨utf8 "a".toList ++ toyDigest '0' ++ utf8 "b".toList, (toySubject "" '0').digest⟩,
    toySubject "c" '1']

/-- The first of the statements above with a sha512 digest. -/
def toyMore : Statement Unit :=
  toyStatement [⟨utf8 "one".toList,
    (toySubject "one" '0').digest.insert (utf8 "sha512".toList) (toyDigest '1')⟩]

/-- Valid statements that are not the same have the same key, and the bundle of the first is
returned for the second. -/
theorem keys_confuse :
    (∃ k, newStatementBundleKey toyPackages (some toyCut) = .ok k ∧
      newStatementBundleKey toyPackages (some toyRecut) = .ok k ∧
      toyCut.idInput (utf8 "{}".toList) = toyRecut.idInput (utf8 "{}".toList) ∧
      ¬ Same toyPackages toyRecut toyCut ∧
      ¬ Faithful toyPackages ∅ [.signStatement (some toyCut) (signedAs [1]),
        .signStatement (some toyRecut) (signedAs [2])]) ∧
    ∃ k, newStatementBundleKey toyPackages (some toyOne) = .ok k ∧
      newStatementBundleKey toyPackages (some toyMore) = .ok k ∧
      toyOne.idInput (utf8 "{}".toList) = toyMore.idInput (utf8 "{}".toList) ∧
      ¬ Same toyPackages toyMore toyOne ∧
      ¬ Faithful toyPackages ∅ [.signStatement (some toyOne) (signedAs [1]),
        .signStatement (some toyMore) (signedAs [2])] := by
  have hcut : newStatementBundleKey toyPackages (some toyCut) =
      .ok (toyCut.bundleKey toyPackages (utf8 "{}".toList)) := by decide +kernel
  have hrecut : newStatementBundleKey toyPackages (some toyRecut) =
      .ok (toyCut.bundleKey toyPackages (utf8 "{}".toList)) := by decide +kernel
  have hone : newStatementBundleKey toyPackages (some toyOne) =
      .ok (toyOne.bundleKey toyPackages (utf8 "{}".toList)) := by decide +kernel
  have hmore : newStatementBundleKey toyPackages (some toyMore) =
      .ok (toyOne.bundleKey toyPackages (utf8 "{}".toList)) := by decide +kernel
  have hcuts : ¬ Same toyPackages toyRecut toyCut := by
    intro h
    have hmem := (h.subject (toySubject "c" '1')).1 (by decide +kernel)
    revert hmem
    decide +kernel
  have hdigests : ¬ Same toyPackages toyMore toyOne := by
    intro h
    have hmem := (h.subject (toySubject "one" '0')).2 List.mem_cons_self
    revert hmem
    decide +kernel
  exact ⟨⟨_, hcut, hrecut, by decide +kernel, hcuts, not_faithful hcut hrecut hcuts _ _⟩,
    _, hone, hmore, by decide +kernel, hdigests, not_faithful hone hmore hdigests _ _⟩

end Transparency
