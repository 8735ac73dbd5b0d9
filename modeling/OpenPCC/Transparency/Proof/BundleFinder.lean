import OpenPCC.Transparency.Proof.Key

/-!
# Which bundles a query finds

The pattern of a query is matched segment by segment with the keys of the stored bundles
(`accepts_glob_iff`). The digest of a query is written in lower case, and the key of a statement has
the digests as they are written in it, of which `Validate` accepts any case. So a query finds the
statements with a digest whose first 24 digits are in lower case (`Lowered`), and these are all
statements that attest the hash just if no upper-case digit hides one (`found_iff`).
-/

namespace Transparency

open Go

variable {Predicate : Type} {P : Packages Predicate} {s : Statement Predicate}
  {q : StatementBundleQuery}

/-! ## What a query asks for -/

/-- The statement has the predicate type of the query. -/
def StatementBundleQuery.OfType (q : StatementBundleQuery) (s : Statement Predicate) : Prop :=
  q.predicateType = [] ∨ s.predicateType = q.predicateType

/-- One of the subjects has the hash of the query. -/
def StatementBundleQuery.Attested (q : StatementBundleQuery) (s : Statement Predicate) : Prop :=
  q.hash = [] ∨ ∃ x ∈ s.subject, Hex.decodeString x.hexSha256Digest = .ok q.hash

/-- The bundle of a statement that the query asks for. -/
def StatementBundleQuery.Answer (q : StatementBundleQuery) : Content Predicate → Prop
  | .data _ => False
  | .statement s => q.OfType s ∧ q.Attested s

instance (q : StatementBundleQuery) : DecidablePred fun content : Content Predicate =>
    q.Answer content :=
  fun content =>
    match content with
    | .data _ => isFalse id
    | .statement s => inferInstanceAs (Decidable ((_ ∨ _) ∧ (_ ∨ ∃ x ∈ s.subject, _)))

/-- One of the subjects has the hash of the query, with the part that stands in the key in lower
case. -/
def StatementBundleQuery.Lowered (q : StatementBundleQuery) (s : Statement Predicate) : Prop :=
  q.hash = [] ∨ ∃ x ∈ s.subject, Hex.decodeString x.hexSha256Digest = .ok q.hash ∧
    ∀ c ∈ x.hexSha256Digest.take (hashLen * 2), ¬ Hex.IsUpper c

theorem StatementBundleQuery.answer_iff {content : Content Predicate} :
    q.Answer content ↔ ∃ s, content = .statement s ∧ q.OfType s ∧ q.Attested s := by
  cases content with
  | data d => exact iff_of_false id fun ⟨_, h, _⟩ => nomatch h
  | statement s =>
    constructor
    · exact fun h => ⟨s, rfl, h⟩
    · rintro ⟨s', hs', h⟩
      cases hs'
      exact h

/-- The stored bundles that the query asks for. -/
def answers (store : Store Predicate) (q : StatementBundleQuery) : List (Bundle Predicate) :=
  (store.entries.filter fun e => q.Answer e.2.content).map (·.2)

/-- The bundles that are returned, none with an error. -/
def returned : Except Err (List (Bundle Predicate)) → List (Bundle Predicate)
  | .ok bundles => bundles
  | .error _ => []

/-! ## Digests -/

/-- A digest stands in the key as the query writes it just if it is in lower case. -/
theorem take_hexSha256Digest_iff {H : Set Bytes} (hinj : H.InjOn (List.take hashLen))
    {d h : Bytes} (hd : ∃ h', Hex.decodeString d = .ok h' ∧ h' ∈ H) (hh : h ∈ H) :
    Hex.encodeToString (h.take hashLen) = d.take (hashLen * 2) ↔
      Hex.decodeString d = .ok h ∧ ∀ c ∈ d.take (hashLen * 2), ¬ Hex.IsUpper c := by
  obtain ⟨h', hdecode, hh'⟩ := hd
  have htake : Hex.decodeString (d.take (hashLen * 2)) = .ok (h'.take hashLen) := by
    rw [Nat.mul_comm]
    exact Hex.decodeString_take hdecode hashLen
  constructor
  · intro heq
    rw [← heq, Hex.decodeString_encodeToString] at htake
    have hsame : h = h' := hinj hh hh' (Except.ok.inj htake)
    rw [hsame]
    rw [hsame] at heq
    have hwritten : Hex.decodeString (d.take (hashLen * 2)) = .ok (h'.take hashLen) := by
      rw [← heq, Hex.decodeString_encodeToString]
    exact ⟨hdecode, (Hex.encodeToString_eq_iff hwritten).1 heq⟩
  · rintro ⟨hdecode', hlower⟩
    rw [hdecode] at hdecode'
    cases hdecode'
    exact (Hex.encodeToString_eq_iff htake).2 hlower

/-! ## Patterns -/

theorem not_mem_hexDigestsPart (h : s.Valid P) : 47 ∉ hexDigestsPart s :=
  Glob.not_mem_intercalate (by decide) fun d hd =>
    (hexDigests_block h d hd).2.not_mem (by decide)

theorem accepts_suffix_iff {t : Bytes} :
    Glob.accepts 42 47 (utf8 "*.pb".toList) t = true ↔
      ∃ u, t = u ++ utf8 ".pb".toList ∧ 47 ∉ u := by
  have hpattern : utf8 "*.pb".toList = 42 :: utf8 ".pb".toList := rfl
  rw [hpattern, Glob.accepts_star]
  constructor
  · rintro ⟨u, v, rfl, hu, hv⟩
    rw [(Glob.accepts_literal (by decide) v).1 hv]
    exact ⟨u, rfl, hu⟩
  · rintro ⟨u, rfl, hu⟩
    exact ⟨u, _, rfl, hu, (Glob.accepts_literal (by decide) _).2 rfl⟩

/-- A hexadecimal text between two stars is looked for in the segment. -/
theorem accepts_infix_iff {w t : Bytes} (hw : IsHex w) (ht : 47 ∉ t) :
    Glob.accepts 42 47 (utf8 "*".toList ++ w ++ utf8 "*.pb".toList) (t ++ utf8 ".pb".toList) =
      true ↔ w <:+: t := by
  have hstar : 42 ∉ w := hw.not_mem (by decide)
  have hpattern : utf8 "*".toList ++ w ++ utf8 "*.pb".toList =
      42 :: (w ++ utf8 "*.pb".toList) := rfl
  rw [hpattern, Glob.accepts_star]
  constructor
  · rintro ⟨u, v, htext, -, hv⟩
    obtain ⟨v', rfl, hv'⟩ := (Glob.accepts_append hstar _ v).1 hv
    obtain ⟨u', rfl, -⟩ := accepts_suffix_iff.1 hv'
    rw [← List.append_assoc, ← List.append_assoc] at htext
    exact ⟨u, u', (List.append_cancel_right htext).symm⟩
  · rintro ⟨u, u', rfl⟩
    simp only [List.mem_append, not_or] at ht
    refine ⟨u, w ++ (u' ++ utf8 ".pb".toList), by simp only [List.append_assoc], ht.1.1, ?_⟩
    exact (Glob.accepts_append hstar _ _).2 ⟨_, rfl, accepts_suffix_iff.2 ⟨u', rfl, ht.2⟩⟩

theorem accepts_digestMatcher_iff (h : s.Valid P) {m : Bytes} (hm : digestMatcher q = .ok m) :
    Glob.accepts 42 47 m (hexDigestsPart s ++ utf8 ".pb".toList) = true ↔
      q.hash = [] ∨ Hex.encodeToString (q.hash.take hashLen) ∈ hexDigests s.ordered := by
  unfold digestMatcher at hm
  by_cases hhash : q.hash = []
  · rw [hhash, if_neg (by simp)] at hm
    cases hm
    refine iff_of_true ?_ (.inl hhash)
    exact accepts_suffix_iff.2 ⟨_, rfl, not_mem_hexDigestsPart h⟩
  rw [if_pos (List.length_pos_iff.2 hhash)] at hm
  split at hm
  · cases hm
  next hlen =>
  cases hm
  have hhex := isHex_encodeToString (q.hash.take hashLen)
  have hlength : (Hex.encodeToString (q.hash.take hashLen)).length = 24 := by
    rw [Hex.length_encodeToString, List.length_take, validateSha256Hash_eq_ok.1 hlen]
    rfl
  have hne : Hex.encodeToString (q.hash.take hashLen) ≠ [] :=
    List.ne_nil_of_length_pos (by omega)
  -- a text of 24 digits is one of the digests, which are as long
  rw [or_iff_right hhash, accepts_infix_iff hhex (not_mem_hexDigestsPart h), hexDigestsPart,
    Glob.infix_intercalate_iff (hhex.not_mem (by decide)) hne
      fun d hd => (hexDigests_block h d hd).1.trans hlength.symm]

theorem accepts_predicateMatcher_iff {m : Bytes} (hm : predicateMatcher P q = .ok m)
    (predicateType : Bytes) :
    47 ∉ m ∧ (Glob.accepts 42 47 m (hexHash P predicateType) = true ↔
      q.predicateType = [] ∨ hexHash P predicateType = hexHash P q.predicateType) := by
  have hslash : ∀ t, 47 ∉ hexHash P t := fun t => (isHex_hexHash P t).not_mem (by decide)
  unfold predicateMatcher at hm
  by_cases htype : q.predicateType = []
  · rw [if_pos htype] at hm
    cases hm
    refine ⟨by decide, iff_of_true ?_ (.inl htype)⟩
    have hpattern : utf8 "*".toList = 42 :: [] := rfl
    rw [hpattern, Glob.accepts_star]
    exact ⟨_, [], (List.append_nil _).symm, hslash _, rfl⟩
  · rw [if_neg htype] at hm
    split at hm
    · cases hm
    cases hm
    rw [or_iff_right htype]
    exact ⟨hslash _, Glob.accepts_literal ((isHex_hexHash P _).not_mem (by decide)) _⟩

theorem accepts_glob_iff (h : s.Valid P) {m m' predicateJSON : Bytes}
    (hm : predicateMatcher P q = .ok m) (hm' : digestMatcher q = .ok m') :
    Glob.accepts 42 47 (utf8 "statements/".toList ++ m ++ utf8 "/*/".toList ++ m')
        (s.bundleKey P predicateJSON) = true ↔
      (q.predicateType = [] ∨ hexHash P s.predicateType = hexHash P q.predicateType) ∧
        (q.hash = [] ∨ Hex.encodeToString (q.hash.take hashLen) ∈ hexDigests s.ordered) := by
  have hpattern : utf8 "statements/".toList ++ m ++ utf8 "/*/".toList ++ m' =
      utf8 "statements".toList ++ 47 :: (m ++ 47 :: ([42] ++ 47 :: m')) := by
    have hfirst : utf8 "statements/".toList = utf8 "statements".toList ++ [47] := rfl
    have hstar : utf8 "/*/".toList = [47, 42, 47] := rfl
    simp only [hfirst, hstar, List.append_assoc, List.cons_append, List.nil_append]
  have hslash : ∀ t, 47 ∉ hexHash P t := fun t => (isHex_hexHash P t).not_mem (by decide)
  obtain ⟨hno, htype⟩ := accepts_predicateMatcher_iff hm s.predicateType
  rw [hpattern, bundleKey_eq, Glob.accepts_segment (by decide) (by decide) (by decide),
    Glob.accepts_segment (by decide) hno (hslash _),
    Glob.accepts_segment (by decide) (by decide) (hslash _), accepts_digestMatcher_iff h hm', htype]
  have hany : Glob.accepts 42 47 [42] (hexHash P (s.idInput predicateJSON)) = true :=
    Glob.accepts_star.2 ⟨_, [], (List.append_nil _).symm, hslash _, rfl⟩
  have hfirst : Glob.accepts 42 47 (utf8 "statements".toList) (utf8 "statements".toList) = true :=
    (Glob.accepts_literal (by decide) _).2 rfl
  simp only [hany, hfirst, true_and]

theorem not_accepts_dataKey (P : Packages Predicate) (data m : Bytes) :
    Glob.accepts 42 47 (utf8 "statements/".toList ++ m) (dataKey P data) = false := by
  have hpattern : utf8 "statements/".toList ++ m =
      utf8 "statements".toList ++ 47 :: m := by
    have hfirst : utf8 "statements/".toList = utf8 "statements".toList ++ [47] := rfl
    rw [hfirst, List.append_assoc]
    rfl
  have hkey : dataKey P data =
      utf8 "data".toList ++ 47 :: (hexHash P data ++ utf8 ".pb".toList) := by
    have hfirst : utf8 "data/".toList = utf8 "data".toList ++ [47] := rfl
    simp only [dataKey, hfirst, List.append_assoc, List.cons_append, List.nil_append]
  rw [hpattern, hkey, Bool.eq_false_iff, ne_eq,
    Glob.accepts_segment (by decide) (by decide) (by decide)]
  exact fun h => absurd h.1 (by decide)

/-! ## Queries -/

theorem predicateMatcher_cases (P : Packages Predicate) (q : StatementBundleQuery) :
    ((q.predicateType = [] ∨ validatePredicateType P q.predicateType = .ok ()) ∧
        ∃ m, predicateMatcher P q = .ok m) ∨
      (¬(q.predicateType = [] ∨ validatePredicateType P q.predicateType = .ok ()) ∧
        ∃ err, predicateMatcher P q = .error err) := by
  unfold predicateMatcher
  by_cases htype : q.predicateType = []
  · rw [if_pos htype]
    exact .inl ⟨.inl htype, _, rfl⟩
  · rw [if_neg htype, or_iff_right htype]
    cases validatePredicateType P q.predicateType with
    | error err => exact .inr ⟨nofun, _, rfl⟩
    | ok u => exact .inl ⟨rfl, _, rfl⟩

theorem digestMatcher_ok (hq : q.hash = [] ∨ q.hash.length = 32) :
    ∃ m, digestMatcher q = .ok m := by
  unfold digestMatcher
  split_ifs with hhash
  · have hlen : q.hash.length = 32 := hq.resolve_left (List.length_pos_iff.1 hhash)
    rw [validateSha256Hash_eq_ok.2 hlen]
    exact ⟨_, rfl⟩
  · exact ⟨_, rfl⟩

section
variable {T H : Set Bytes} (hfree : T.InjOn (hexHash P)) (hinj : H.InjOn (List.take hashLen))
  (htype : q.predicateType ∈ T) (hhash : q.hash ∈ H)

include hfree hinj htype hhash

/-- A statement is found just if it has the predicate type and the hash in lower case. -/
theorem accepts_iff_lowered (h : s.Valid P) (hs : s.predicateType ∈ T)
    (hsubjects : ∀ x ∈ s.subject, ∀ d, Hex.decodeString x.hexSha256Digest = .ok d → d ∈ H)
    {m m' predicateJSON : Bytes} (hm : predicateMatcher P q = .ok m)
    (hm' : digestMatcher q = .ok m') :
    Glob.accepts 42 47 (utf8 "statements/".toList ++ m ++ utf8 "/*/".toList ++ m')
        (s.bundleKey P predicateJSON) = true ↔ q.OfType s ∧ q.Lowered s := by
  rw [accepts_glob_iff h hm hm']
  refine and_congr (or_congr_right ⟨fun heq => hfree hs htype heq, fun heq => by rw [heq]⟩)
    (or_congr_right ?_)
  have hdigested : ∀ x ∈ s.subject, ∃ d, Hex.decodeString x.hexSha256Digest = .ok d ∧ d ∈ H := by
    intro x hx
    obtain ⟨d, hd, -⟩ := h.digested x hx
    exact ⟨d, hd, hsubjects x hx d hd⟩
  constructor
  · intro hmem
    obtain ⟨x, hx, heq⟩ := List.mem_map.1 hmem
    have hx := mem_ordered.1 hx
    exact ⟨x, hx, (take_hexSha256Digest_iff hinj (hdigested x hx) hhash).1 heq.symm⟩
  · rintro ⟨x, hx, hlower⟩
    exact List.mem_map.2 ⟨x, mem_ordered.2 hx,
      ((take_hexSha256Digest_iff hinj (hdigested x hx) hhash).2 hlower).symm⟩

theorem accepts_content_iff {content : Content Predicate} {k : Bytes} (hkey : content.HasKey P k)
    (hcontent : ∀ s, content = .statement s → s.predicateType ∈ T ∧
      ∀ x ∈ s.subject, ∀ d, Hex.decodeString x.hexSha256Digest = .ok d → d ∈ H)
    {m m' : Bytes} (hm : predicateMatcher P q = .ok m) (hm' : digestMatcher q = .ok m') :
    Glob.accepts 42 47 (utf8 "statements/".toList ++ m ++ utf8 "/*/".toList ++ m') k = true ↔
      ∃ s, content = .statement s ∧ q.OfType s ∧ q.Lowered s := by
  cases content with
  | data d =>
    obtain rfl : k = dataKey P d := hkey
    rw [List.append_assoc, List.append_assoc, not_accepts_dataKey]
    exact iff_of_false nofun (fun ⟨_, h, _⟩ => nomatch h)
  | statement s =>
    obtain ⟨hv, -, predicateJSON, -, rfl⟩ := newStatementBundleKey_eq_ok.1 hkey
    obtain ⟨hs, hsubjects⟩ := hcontent s rfl
    rw [accepts_iff_lowered hfree hinj htype hhash (Statement.valid_of_validate hv) hs hsubjects
      hm hm']
    constructor
    · exact fun h => ⟨s, rfl, h⟩
    · rintro ⟨s', hs', h⟩
      cases hs'
      exact h

end

theorem StatementBundleQuery.Lowered.attested (h : q.Lowered s) : q.Attested s :=
  h.imp_right fun ⟨x, hx, hdecode, _⟩ => ⟨x, hx, hdecode⟩

theorem map_filter_eq_iff {α β : Type} {p p' : α → Bool} {f : α → β} {l : List α}
    (hp : ∀ a ∈ l, p a = true → p' a = true) :
    (l.filter p).map f = (l.filter p').map f ↔ ∀ a ∈ l, p' a = true → p a = true := by
  constructor
  · intro heq a ha hpa
    have hsub : l.filter p = (l.filter p').filter p := by
      rw [List.filter_filter]
      refine List.filter_congr fun a ha => ?_
      cases hpa : p a with
      | false => rfl
      | true => rw [hp a ha hpa, Bool.and_self]
    have hlength := congrArg List.length heq
    rw [List.length_map, List.length_map, hsub, List.length_filter_eq_length_iff] at hlength
    exact hlength a (List.mem_filter.2 ⟨ha, hpa⟩)
  · intro hp'
    rw [List.filter_congr fun a ha => Bool.eq_iff_iff.2 ⟨hp a ha, hp' a ha⟩]

section
variable {store : Store Predicate} {S : Statement Predicate → Prop} (h : Addressed P S store)

include h

/-- A query that is refused asks for no stored bundle. -/
theorem not_ofType_of_refused
    (hrefused : ¬(q.predicateType = [] ∨ validatePredicateType P q.predicateType = .ok ()))
    {k : Bytes} {b : Bundle Predicate} (hb : store.lookup k = some b)
    (hs : b.content = .statement s) : ¬ q.OfType s := by
  intro hoftype
  obtain ⟨hkey, -⟩ := h k b hb
  rw [hs] at hkey
  obtain ⟨hv, -⟩ := newStatementBundleKey_eq_ok.1 hkey
  refine hrefused (hoftype.imp_right fun heq => ?_)
  rw [← heq]
  exact (Statement.valid_of_validate hv).predicateType

theorem answers_of_refused
    (hrefused : ¬(q.predicateType = [] ∨ validatePredicateType P q.predicateType = .ok ())) :
    answers store q = [] := by
  rw [answers, List.map_eq_nil_iff, List.filter_eq_nil_iff]
  intro e he hanswer
  obtain ⟨s, hs, hoftype, -⟩ := StatementBundleQuery.answer_iff.1 (of_decide_eq_true hanswer)
  exact not_ofType_of_refused h hrefused (AList.mem_lookup_iff.2 he) hs hoftype

/-- The bundles whose keys match are those that the query asks for, if no upper-case digit hides
one. -/
theorem findByGlob_eq_answers_iff {T H : Set Bytes} (hfree : T.InjOn (hexHash P))
    (hinj : H.InjOn (List.take hashLen)) (htype : q.predicateType ∈ T) (hhash : q.hash ∈ H)
    (hS : ∀ s, S s → s.predicateType ∈ T ∧
      ∀ x ∈ s.subject, ∀ d, Hex.decodeString x.hexSha256Digest = .ok d → d ∈ H)
    {m m' : Bytes} (hm : predicateMatcher P q = .ok m) (hm' : digestMatcher q = .ok m') :
    store.findByGlob (utf8 "statements/".toList ++ m ++ utf8 "/*/".toList ++ m') =
        answers store q ↔
      ∀ k b s, store.lookup k = some b → b.content = .statement s →
        q.OfType s → q.Attested s → q.Lowered s := by
  have haccepts : ∀ e ∈ store.entries,
      Glob.accepts 42 47 (utf8 "statements/".toList ++ m ++ utf8 "/*/".toList ++ m') e.1 = true ↔
        ∃ s, e.2.content = .statement s ∧ q.OfType s ∧ q.Lowered s := by
    intro e he
    obtain ⟨hkey, hmem⟩ := h e.1 e.2 (AList.mem_lookup_iff.2 he)
    exact accepts_content_iff hfree hinj htype hhash hkey (fun s hs => hS s (hmem s hs)) hm hm'
  rw [Store.findByGlob, answers, map_filter_eq_iff]
  · constructor
    · intro hfound k b s hb hs hoftype hattested
      have he : ⟨k, b⟩ ∈ store.entries := AList.mem_lookup_iff.1 hb
      have hanswer : q.Answer b.content :=
        StatementBundleQuery.answer_iff.2 ⟨s, hs, hoftype, hattested⟩
      obtain ⟨s', hs', -, hlowered⟩ := (haccepts _ he).1 (hfound _ he (decide_eq_true hanswer))
      rw [hs] at hs'
      cases hs'
      exact hlowered
    · intro hlowered e he hanswer
      obtain ⟨s, hs, hoftype, hattested⟩ :=
        StatementBundleQuery.answer_iff.1 (of_decide_eq_true hanswer)
      exact (haccepts e he).2 ⟨s, hs, hoftype,
        hlowered e.1 e.2 s (AList.mem_lookup_iff.2 he) hs hoftype hattested⟩
  · intro e he hfound
    obtain ⟨s, hs, hoftype, hlowered⟩ := (haccepts e he).1 hfound
    exact decide_eq_true
      (StatementBundleQuery.answer_iff.2 ⟨s, hs, hoftype, hlowered.attested⟩)

end

/-- After a run, a query is refused just if its predicate type is none, and it returns the stored
bundles that it asks for just if each of their statements has the hash in a digest that is in lower
case where it stands in the key. -/
theorem found_iff (P : Packages Predicate) (calls : List (Call Predicate))
    (q : StatementBundleQuery) (hq : q.hash = [] ∨ q.hash.length = 32) {T H : Set Bytes}
    (hfree : T.InjOn (hexHash P)) (hinj : H.InjOn (List.take hashLen))
    (htype : q.predicateType ∈ T) (hhash : q.hash ∈ H)
    (hstatements : ∀ s ∈ statements calls, s.predicateType ∈ T ∧
      ∀ x ∈ s.subject, ∀ d, Hex.decodeString x.hexSha256Digest = .ok d → d ∈ H) :
    ((∃ err, findStatementBundles P (stored P calls) q = .error err) ↔
        ¬(q.predicateType = [] ∨ validatePredicateType P q.predicateType = .ok ())) ∧
      (returned (findStatementBundles P (stored P calls) q) = answers (stored P calls) q ↔
        ∀ k b s, (stored P calls).lookup k = some b → b.content = .statement s →
          q.OfType s → q.Attested s → q.Lowered s) := by
  have haddressed := addressed_stored P calls
  obtain ⟨m', hm'⟩ := digestMatcher_ok hq
  obtain ⟨hvalid, m, hm⟩ | ⟨hrefused, err, hm⟩ := predicateMatcher_cases P q
  · have hfind : findStatementBundles P (stored P calls) q = .ok ((stored P calls).findByGlob
        (utf8 "statements/".toList ++ m ++ utf8 "/*/".toList ++ m')) := by
      simp only [findStatementBundles, hm, hm']
    rw [hfind]
    exact ⟨iff_of_false (fun ⟨_, h⟩ => nomatch h) (fun h => h hvalid),
      findByGlob_eq_answers_iff haddressed hfree hinj htype hhash hstatements hm hm'⟩
  · have hfind : findStatementBundles P (stored P calls) q = .error err := by
      simp only [findStatementBundles, hm]
    rw [hfind]
    refine ⟨iff_of_true ⟨err, rfl⟩ hrefused,
      iff_of_true (answers_of_refused haddressed hrefused).symm ?_⟩
    exact fun k b s hb hs hoftype =>
      absurd hoftype (not_ofType_of_refused haddressed hrefused hb hs)

/-- A query for the predicate type of `toyStatement`. -/
def toyQuery (hash : Bytes) : StatementBundleQuery := ⟨utf8 "https://a/p".toList, hash⟩

/-- A statement with a lower-case digest is found. -/
theorem found_toyOne :
    returned (findStatementBundles toyPackages
        (stored toyPackages [.signStatement (some toyOne) (signedAs [1])])
        (toyQuery (List.replicate 32 0))) =
      answers (stored toyPackages [.signStatement (some toyOne) (signedAs [1])])
        (toyQuery (List.replicate 32 0)) := by
  have hstatements : ∀ s ∈ statements [.signStatement (some toyOne) (signedAs [1])],
      s = toyOne := by
    simp [statements, Call.statement?]
  have hdigest : Hex.decodeString (toySubject "one" '0').hexSha256Digest =
      .ok (List.replicate 32 0) := by decide +kernel
  refine (found_iff toyPackages _ (toyQuery (List.replicate 32 0)) (.inr rfl)
    (Set.injOn_singleton _ (utf8 "https://a/p".toList))
    (Set.injOn_singleton _ (List.replicate 32 0)) rfl rfl ?_).2.2 ?_
  · intro s hs
    rw [hstatements s hs]
    refine ⟨rfl, fun x hx d hd => ?_⟩
    rw [List.mem_singleton.1 hx, hdigest] at hd
    exact (Except.ok.inj hd).symm
  · intro k b s hb hs _ _
    obtain ⟨-, hmem⟩ := addressed_stored toyPackages _ k b hb
    rw [hstatements s (hmem s hs)]
    exact .inr ⟨_, List.mem_singleton_self _, hdigest, by decide +kernel⟩

/-- A statement with an upper-case digest. -/
def toyUpper : Statement Unit := toyStatement [toySubject "one" 'A']

/-- A statement with an upper-case digest is valid and stored, and not found by its hash. -/
theorem upper_case_not_found :
    Statement.validate toyPackages (some toyUpper) = .ok () ∧
      findStatementBundles toyPackages
          (stored toyPackages [.signStatement (some toyUpper) (signedAs [1])])
          (toyQuery (List.replicate 32 0xAA)) = .ok [] ∧
      answers (stored toyPackages [.signStatement (some toyUpper) (signedAs [1])])
          (toyQuery (List.replicate 32 0xAA)) = [⟨[1], .statement toyUpper⟩] := by
  decide +kernel

end Transparency
