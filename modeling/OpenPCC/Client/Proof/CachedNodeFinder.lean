import OpenPCC.Client.CachedNodeFinder
import OpenPCC.Lib.FisherYates
import OpenPCC.Lib.Runs

/-!
# Which requests a cache answers rightly

Every entry of the cache was filled for a request with its key (`Filled`), and a hit returns these
nodes in another order. So the requests of a run are answered rightly if each is compatible with the
later ones; otherwise a finder that fails in between makes the cache answer wrongly
(`keeps_iff`).
-/

namespace Client

open Go

/-! ## Keys -/

/-- The key does not depend on the order of the slice. -/
theorem cacheKey_congr {r r' : Request} (h : r.tags = r'.tags) : r.cacheKey = r'.cacheKey := by
  have hperm : r.slice.Perm r'.slice :=
    List.perm_of_nodup_nodup_toFinset_eq r.nodup r'.nodup
      (by rw [r.toFinset, r'.toFinset, h])
  have hsort : sortStrings r.slice = sortStrings r'.slice :=
    (Runs.insertionSort_eq_iff fun a _ b _ => Std.le_antisymm).2 hperm
  rw [Request.cacheKey, Request.cacheKey, normalizedCacheKey, normalizedCacheKey, hsort,
    hperm.length_eq]

/-! ## Shuffling -/

section
variable {α : Type} {draw : (i : Nat) → Except Err (Fin (i + 1))}

theorem cryptoShuffle_perm {i : Nat} {nodes nodes' : Array α}
    (h : cryptoShuffle draw i nodes = .ok nodes') : nodes'.Perm nodes := by
  induction i generalizing nodes with
  | zero =>
    cases h
    exact Array.Perm.refl _
  | succ i ih =>
    rw [cryptoShuffle] at h
    split at h
    · cases h
    · exact (ih h).trans (Array.swapIfInBounds_perm _ _ _)

theorem cryptoShuffle_ok (hdraw : ∀ i, ∃ j, draw i = .ok j) (i : Nat) (nodes : Array α) :
    ∃ nodes', cryptoShuffle draw i nodes = .ok nodes' := by
  induction i generalizing nodes with
  | zero => exact ⟨nodes, rfl⟩
  | succ i ih =>
    obtain ⟨j, hj⟩ := hdraw (i + 1)
    rw [cryptoShuffle, hj]
    exact ih _

theorem shuffleNodes_perm {nodes nodes' : List VerifiedNode}
    (h : shuffleNodes draw nodes = .ok nodes') : nodes'.Perm nodes := by
  unfold shuffleNodes at h
  cases hs : cryptoShuffle draw (nodes.length - 1) nodes.toArray with
  | error e =>
    rw [hs] at h
    cases h
  | ok a =>
    rw [hs] at h
    cases h
    have hperm := cryptoShuffle_perm hs
    rwa [Array.perm_iff_toList_perm] at hperm

theorem shuffleNodes_ok (hdraw : ∀ i, ∃ j, draw i = .ok j) (nodes : List VerifiedNode) :
    ∃ nodes', shuffleNodes draw nodes = .ok nodes' := by
  obtain ⟨a, ha⟩ := cryptoShuffle_ok hdraw (nodes.length - 1) nodes.toArray
  exact ⟨a.toList, by rw [shuffleNodes, ha]; rfl⟩

end

theorem Request.Fits.perm {r : Request} {nodes nodes' : List VerifiedNode} (h : r.Fits nodes)
    (hperm : nodes'.Perm nodes) : r.Fits nodes' :=
  ⟨by rw [hperm.length_eq]; exact h.count, fun node hnode => h.tags node (hperm.mem_iff.1 hnode)⟩

/-! ## Calls -/

theorem retryFind_ok {stop : Err} {replies : List (Except Err (List VerifiedNode))}
    {nodes : List VerifiedNode} (h : retryFind stop replies = .ok nodes) :
    .ok nodes ∈ replies ∧ nodes ≠ [] := by
  induction replies with
  | nil => cases h
  | cons reply replies ih =>
    match reply with
    | .error err => cases h
    | .ok [] =>
      obtain ⟨hmem, hne⟩ := ih h
      exact ⟨List.mem_cons_of_mem _ hmem, hne⟩
    | .ok (node :: nodes') =>
      cases h
      exact ⟨List.mem_cons_self, List.cons_ne_nil _ _⟩

namespace CachedNodeFinder

variable {C : Type} {lru : CacheLib Bytes CacheEntry Err C} {f : CachedNodeFinder C} {r : Request}
  {env : CallEnv}

/-- The entry of `nodes` that were fetched in a call. -/
def filledEntry (f : CachedNodeFinder C) (env : CallEnv) (nodes : List VerifiedNode) : CacheEntry :=
  ⟨nodes, f.now + env.wait + env.fetch + f.cfg.expiresAfter⟩

theorem find_cases (lru : CacheLib Bytes CacheEntry Err C) (f : CachedNodeFinder C) (r : Request)
    (env : CallEnv) :
    (∃ entry, lru.Has f.cache r.cacheKey entry ∧ ¬ entry.expiresAt < f.now + env.wait ∧
        f.findVerifiedNodes lru r env = (shuffleNodes env.draw entry.nodes,
          ⟨f.cfg, (lru.get f.cache r.cacheKey).2, f.now + env.wait⟩)) ∨
      ((¬ ∃ entry, lru.Has f.cache r.cacheKey entry ∧ ¬ entry.expiresAt < f.now + env.wait) ∧
        ((∃ err, retryFind env.stop env.replies = .error err ∧
            f.findVerifiedNodes lru r env = (.error err,
              ⟨f.cfg, (lru.get f.cache r.cacheKey).2, f.now + env.wait + env.fetch⟩)) ∨
          ∃ nodes, retryFind env.stop env.replies = .ok nodes ∧
            f.findVerifiedNodes lru r env = (shuffleNodes env.draw nodes,
              ⟨f.cfg, lru.add (lru.get f.cache r.cacheKey).2 r.cacheKey (f.filledEntry env nodes),
                f.now + env.wait + env.fetch⟩))) := by
  by_cases hhit : ∃ entry, lru.Has f.cache r.cacheKey entry ∧
      ¬ entry.expiresAt < f.now + env.wait
  · obtain ⟨entry, hgot, hlive⟩ := hhit
    refine .inl ⟨entry, hgot, hlive, ?_⟩
    rw [CacheOps.Has] at hgot
    simp only [findVerifiedNodes, hgot, CacheEntry.isExpired, hlive, decide_false,
      Bool.false_eq_true, if_false]
  · -- a miss, with an expired entry or with none
    have hmiss : f.findVerifiedNodes lru r env = fetchNodes lru
        ⟨f.cfg, (lru.get f.cache r.cacheKey).2, f.now + env.wait⟩ r env := by
      dsimp only [findVerifiedNodes]
      cases hgot : (lru.get f.cache r.cacheKey).1 with
      | none => rfl
      | some entry =>
        refine if_pos (decide_eq_true (by_contra fun hlive => hhit ⟨entry, hgot, hlive⟩))
    refine .inr ⟨hhit, ?_⟩
    rw [hmiss, fetchNodes]
    cases hretry : retryFind env.stop env.replies with
    | error err => exact .inl ⟨err, rfl, rfl⟩
    | ok nodes => exact .inr ⟨nodes, rfl, rfl⟩

/-! ## Runs that keep the promise -/

/-- Every entry was filled for one of the requests. -/
def Filled (lru : CacheLib Bytes CacheEntry Err C) (f : CachedNodeFinder C) (rs : List Request) :
    Prop :=
  ∀ k entry, lru.Has f.cache k entry →
    ∃ r ∈ rs, r.cacheKey = k ∧ 1 ≤ r.maxNodes ∧ r.Fits entry.nodes

theorem Filled.step {rs : List Request} (h : f.Filled lru rs) (henv : env.Honest r) :
    (f.findVerifiedNodes lru r env).2.Filled lru (rs ++ [r]) := by
  have hold : ∀ k entry, lru.Has (lru.get f.cache r.cacheKey).2 k entry →
      ∃ r' ∈ rs ++ [r], r'.cacheKey = k ∧ 1 ≤ r'.maxNodes ∧ r'.Fits entry.nodes := by
    intro k entry hentry
    obtain ⟨r', hr', hrest⟩ := h k entry (lru.has_get _ _ _ _ hentry)
    exact ⟨r', List.mem_append_left _ hr', hrest⟩
  obtain ⟨entry, -, -, hf⟩ | ⟨-, ⟨err, -, hf⟩ | ⟨nodes, hretry, hf⟩⟩ := find_cases lru f r env
  · rw [hf]
    exact hold
  · rw [hf]
    exact hold
  · rw [hf]
    intro k entry hentry
    obtain ⟨rfl, rfl⟩ | hentry := lru.has_add _ _ _ _ _ hentry
    · obtain ⟨hmem, hne⟩ := retryFind_ok hretry
      have hfits := henv nodes hmem
      have hlen := List.length_pos_iff.2 hne
      have hcount := hfits.count
      exact ⟨r, by simp, rfl, by omega, hfits⟩
    · exact hold k entry hentry

theorem Filled.fits {rs : List Request} (h : f.Filled lru rs) (henv : env.Honest r)
    (hcompatible : ∀ r' ∈ rs, r'.Compatible r) {nodes : List VerifiedNode}
    (hok : (f.findVerifiedNodes lru r env).1 = .ok nodes) : r.Fits nodes := by
  obtain ⟨entry, hentry, -, hf⟩ | ⟨-, ⟨err, -, hf⟩ | ⟨nodes', hretry, hf⟩⟩ := find_cases lru f r env
  · rw [hf] at hok
    obtain ⟨r', hr', hkey, hpos, hfits⟩ := h _ entry hentry
    obtain ⟨hle, hsub⟩ := hcompatible r' hr' hkey hpos
    refine Request.Fits.perm ⟨?_, fun node hnode => ?_⟩ (shuffleNodes_perm hok)
    · exact hfits.count.trans hle
    · exact hsub.trans (hfits.tags node hnode)
  · rw [hf] at hok
    cases hok
  · rw [hf] at hok
    exact (henv nodes' (retryFind_ok hretry).1).perm (shuffleNodes_perm hok)

theorem Filled.keeps (rs : List Request) {calls : List (Request × CallEnv)} (h : f.Filled lru rs)
    (hhonest : ∀ c ∈ calls, c.2.Honest c.1)
    (hcompatible : (rs ++ calls.map Prod.fst).Pairwise Request.Compatible) : f.Keeps lru calls := by
  induction calls generalizing f rs with
  | nil => trivial
  | cons c calls ih =>
    obtain ⟨r, env⟩ := c
    obtain ⟨henv, hrest⟩ := List.forall_mem_cons.1 hhonest
    have hbefore : ∀ r' ∈ rs, r'.Compatible r := fun r' hr' =>
      (List.pairwise_append.1 hcompatible).2.2 r' hr' r List.mem_cons_self
    refine ⟨fun nodes hok => h.fits henv hbefore hok, ih (rs ++ [r]) (h.step henv) hrest ?_⟩
    rwa [List.append_assoc, List.singleton_append]

/-- With a negative lifetime every entry is expired when it is looked up. -/
theorem keeps_of_expired {calls : List (Request × CallEnv)} (hcfg : f.cfg.expiresAfter < 0)
    (hstale : ∀ k entry, lru.Has f.cache k entry → entry.expiresAt < f.now)
    (hhonest : ∀ c ∈ calls, c.2.Honest c.1) : f.Keeps lru calls := by
  induction calls generalizing f with
  | nil => trivial
  | cons c calls ih =>
    obtain ⟨r, env⟩ := c
    obtain ⟨henv, hrest⟩ := List.forall_mem_cons.1 hhonest
    have hlater : ∀ k entry, lru.Has (lru.get f.cache r.cacheKey).2 k entry →
        entry.expiresAt < f.now + env.wait + env.fetch := by
      intro k entry hentry
      have hlt := hstale k entry (lru.has_get _ _ _ _ hentry)
      omega
    obtain ⟨entry, hentry, hlive, -⟩ | ⟨-, ⟨err, -, hf⟩ | ⟨nodes', hretry, hf⟩⟩ :=
      find_cases lru f r env
    · have hexpired := hstale _ _ hentry
      omega
    · rw [Keeps, hf]
      refine ⟨fun nodes hok => ?_, ih (f := ⟨f.cfg, _, _⟩) hcfg hlater hrest⟩
      cases hok
    · rw [Keeps, hf]
      refine ⟨fun nodes hok => ?_, ih (f := ⟨f.cfg, _, _⟩) hcfg (fun k entry hentry => ?_) hrest⟩
      · exact (henv nodes' (retryFind_ok hretry).1).perm (shuffleNodes_perm hok)
      · obtain ⟨-, rfl⟩ | hentry := lru.has_add _ _ _ _ _ hentry
        · simp only [filledEntry]
          omega
        · exact hlater k entry hentry

/-! ## Runs that break it -/

/-- A call that takes no time and draws 0 always. -/
def atOnce (err : Err) (replies : List (Except Err (List VerifiedNode))) : CallEnv :=
  ⟨0, 0, replies, err, fun i => .ok ⟨0, i.succ_pos⟩⟩

/-- A call in which the underlying finder fails. -/
def failing (err : Err) : CallEnv := atOnce err [.error err]

theorem failing_honest (err : Err) (r : Request) : (failing err).Honest r := by
  intro nodes hmem
  cases List.mem_singleton.1 hmem

theorem find_failing (lru : CacheLib Bytes CacheEntry Err C) (f : CachedNodeFinder C) (err : Err)
    (r : Request) :
    (f.findVerifiedNodes lru r (failing err)).2 =
        { f with cache := (lru.get f.cache r.cacheKey).2 } ∧
      ∀ entry, lru.Has f.cache r.cacheKey entry → f.now ≤ entry.expiresAt →
        (f.findVerifiedNodes lru r (failing err)).1 =
          shuffleNodes (failing err).draw entry.nodes := by
  have hnow : f.now + (failing err).wait = f.now := Int.add_zero _
  have hnow' : f.now + (failing err).wait + (failing err).fetch = f.now := by
    rw [hnow]
    exact Int.add_zero _
  have hlive : ∀ entry : CacheEntry, f.now ≤ entry.expiresAt →
      ¬ entry.expiresAt < f.now + (failing err).wait := fun entry h => by omega
  obtain ⟨entry, hentry, -, hf⟩ | ⟨hmiss, ⟨err', -, hf⟩ | ⟨nodes', hretry, -⟩⟩ :=
    find_cases lru f r (failing err)
  · rw [hf, hnow]
    refine ⟨rfl, fun entry' hentry' _ => ?_⟩
    rw [Option.some.inj (hentry'.symm.trans hentry)]
  · rw [hf, hnow']
    exact ⟨rfl, fun entry hentry h => absurd ⟨entry, hentry, hlive entry h⟩ hmiss⟩
  · cases hretry

theorem Keeps.fits_entry {size : Int} {k : Bytes} {entry : CacheEntry} {err : Err}
    {rs : List Request} (hsize : 0 < size) (hcache : lru.Holds size k entry f.cache)
    (hlive : f.now ≤ entry.expiresAt) (hkeeps : f.Keeps lru (rs.map fun r => (r, failing err)))
    (hr : r ∈ rs) (hk : k = r.cacheKey) : r.Fits entry.nodes := by
  induction rs generalizing f with
  | nil => cases hr
  | cons r' rs ih =>
    obtain ⟨hfirst, hrest⟩ := hkeeps
    obtain ⟨hstate, hanswer⟩ := find_failing lru f err r'
    rw [hstate] at hrest
    obtain rfl | hr := List.mem_cons.1 hr
    · obtain ⟨nodes, hnodes⟩ : ∃ nodes, shuffleNodes (failing err).draw entry.nodes = .ok nodes :=
        shuffleNodes_ok (fun i => ⟨_, rfl⟩) _
      have hhas := lru.found size k entry f.cache hsize hcache
      rw [hk] at hhas
      exact (hfirst nodes ((hanswer entry hhas hlive).trans hnodes)).perm
        (shuffleNodes_perm hnodes).symm
    · exact ih (f := { f with cache := (lru.get f.cache r'.cacheKey).2 }) (hcache.get _) hlive hrest
        hr

/-- An answer to `r` that is as large as it may be, of nodes with no other tags. -/
def answer (r : Request) : List VerifiedNode := List.replicate r.maxNodes.toNat ⟨[], r.tags⟩

theorem answer_fits (hpos : 1 ≤ r.maxNodes) : r.Fits (answer r) := by
  refine ⟨?_, fun node hnode => ?_⟩
  · rw [answer, List.length_replicate]
    omega
  · rw [List.eq_of_mem_replicate hnode]

theorem not_has_of_untouched {size : Int} {c : C} (h : lru.Untouched size c) (k : Bytes)
    (entry : CacheEntry) : ¬ lru.Has c k entry := by
  induction h with
  | new hnew => exact lru.not_has_new _ _ _ _ hnew
  | get k' _ ih => exact fun hhas => ih (lru.has_get _ _ _ _ hhas)

theorem find_answer {size : Int} (err : Err) (hcache : lru.Untouched size f.cache)
    (hpos : 1 ≤ r.maxNodes) :
    (f.findVerifiedNodes lru r (atOnce err [.ok (answer r)])).2 =
      ⟨f.cfg, lru.add (lru.get f.cache r.cacheKey).2 r.cacheKey
        ⟨answer r, f.now + f.cfg.expiresAfter⟩, f.now⟩ := by
  have hretry : retryFind err [.ok (answer r)] = .ok (answer r) := by
    obtain ⟨m, hm⟩ : ∃ m, r.maxNodes.toNat = m + 1 := ⟨r.maxNodes.toNat - 1, by omega⟩
    rw [answer, hm]
    rfl
  have hnone : (lru.get f.cache r.cacheKey).1 = none :=
    Option.eq_none_iff_forall_ne_some.2 fun entry => not_has_of_untouched hcache _ entry
  simp [findVerifiedNodes, hnone, fetchNodes, atOnce, hretry]

/-- If an answer to `r` is none to the later `r'`, the cache gives it to `r'` when the finder fails
for all requests after `r`. -/
theorem compatible_of_keeps {size : Int} {r' : Request} {rs : List Request} (err : Err)
    (hsize : 0 < size) (hcache : lru.Untouched size f.cache) (hcfg : 0 ≤ f.cfg.expiresAfter)
    (hkeeps : 1 ≤ r.maxNodes →
      f.Keeps lru ((r, atOnce err [.ok (answer r)]) :: rs.map fun r => (r, failing err)))
    (hr' : r' ∈ rs) : r.Compatible r' := by
  intro hkey hpos
  obtain ⟨-, hrest⟩ := hkeeps hpos
  rw [find_answer err hcache hpos] at hrest
  have hfits : r'.Fits (answer r) := Keeps.fits_entry hsize (.add (hcache.get _))
    (Int.le_add_of_nonneg_right hcfg) hrest hr' hkey
  have hcount := hfits.count
  rw [answer, List.length_replicate] at hcount
  refine ⟨by omega, hfits.tags ⟨[], r.tags⟩ ?_⟩
  exact List.mem_replicate.2 ⟨by omega, rfl⟩

theorem pairwise_of_keeps {size : Int} {requests : List Request} (err : Err) (hsize : 0 < size)
    (hcache : lru.Untouched size f.cache) (hcfg : 0 ≤ f.cfg.expiresAfter)
    (hkeeps : ∀ calls : List (Request × CallEnv), calls.map Prod.fst = requests →
      (∀ c ∈ calls, c.2.Honest c.1) → f.Keeps lru calls) :
    requests.Pairwise Request.Compatible := by
  induction requests generalizing f with
  | nil => exact List.Pairwise.nil
  | cons r rs ih =>
    refine List.Pairwise.cons (fun r' hr' => ?_)
      (ih (f := { f with cache := (lru.get f.cache r.cacheKey).2 }) (hcache.get _) hcfg
        fun calls hcalls hhonest => ?_)
    · refine compatible_of_keeps err hsize hcache hcfg (fun hpos => hkeeps _ ?_ ?_) hr'
      · rw [List.map_cons, List.map_map]
        exact congrArg (r :: ·) (List.map_id rs)
      · refine List.forall_mem_cons.2 ⟨fun nodes hnodes => ?_, fun c hc => ?_⟩
        · cases List.mem_singleton.1 hnodes
          exact answer_fits hpos
        · obtain ⟨r'', -, rfl⟩ := List.mem_map.1 hc
          exact failing_honest err r''
    · -- the first call fails, and nothing was added for the others
      have hall := hkeeps ((r, failing err) :: calls) (by rw [List.map_cons, hcalls])
        (List.forall_mem_cons.2 ⟨failing_honest err r, hhonest⟩)
      have hrest := hall.2
      rwa [(find_failing lru f err r).1] at hrest

/-- A new finder keeps the promise of the finder under it, whatever that does and whenever the
requests come, just when no entry lives or an answer to a request is one to each later request with
its key. -/
theorem keeps_iff {C : Type} {lru : CacheLib Bytes CacheEntry Err C} {f : CachedNodeFinder C}
    {cfg : CachedNodeFinderConfig} {now : Int}
    (hnew : newCachedNodeFinder lru cfg now = .ok f) (requests : List Request) :
    (∀ calls : List (Request × CallEnv), calls.map Prod.fst = requests →
        (∀ c ∈ calls, c.2.Honest c.1) → f.Keeps lru calls) ↔
      cfg.expiresAfter < 0 ∨ requests.Pairwise Request.Compatible := by
  unfold newCachedNodeFinder at hnew
  split at hnew
  · cases hnew
  next cache hcache =>
  cases hnew
  have hempty : ∀ k entry, ¬ lru.Has cache k entry := not_has_of_untouched (.new hcache)
  constructor
  · intro hkeeps
    by_cases hcfg : cfg.expiresAfter < 0
    · exact .inl hcfg
    · exact .inr (pairwise_of_keeps (.var .canceled) (CacheLib.size_pos hcache) (.new hcache)
        (Int.not_lt.1 hcfg) hkeeps)
  · rintro (hcfg | hcompatible) calls rfl hhonest
    · exact keeps_of_expired hcfg (fun k entry h => absurd h (hempty k entry)) hhonest
    · exact Filled.keeps [] (fun k entry h => absurd h (hempty k entry)) hhonest hcompatible

/-! ## With the default configuration -/

/-- A cache that keeps the entries used last. -/
def lastUsed : CacheLib Bytes CacheEntry Err (Lru Bytes CacheEntry) :=
  Lru.lib Bytes CacheEntry (.new "must provide a positive size" [])

/-- A new finder. -/
def fresh : CachedNodeFinder (Lru Bytes CacheEntry) := ⟨defaultCachedNodeFinderConfig, ⟨100, []⟩, 0⟩

/-- A request without tags. -/
def untagged (maxNodes : Int) : Request := ⟨maxNodes, ∅, [], List.nodup_nil, rfl⟩

/-- A request for the tag `a|b`. -/
def taggedJoined : Request := ⟨1, {[97, 124, 98]}, [[97, 124, 98]], by decide, rfl⟩

/-- A request for the tags `a` and `b`, which has the same key. -/
def taggedApart : Request := ⟨1, {[97], [98]}, [[97], [98]], by decide, rfl⟩

/-- The underlying finder answers a request for one node, and a later one for three is served from
the cache. -/
theorem keeps_untagged :
    newCachedNodeFinder lastUsed defaultCachedNodeFinderConfig 0 = .ok fresh ∧
      ∀ calls : List (Request × CallEnv), calls.map Prod.fst = [untagged 1, untagged 3] →
        (∀ c ∈ calls, c.2.Honest c.1) → fresh.Keeps lastUsed calls := by
  have hnew : newCachedNodeFinder lastUsed defaultCachedNodeFinderConfig 0 = .ok fresh := rfl
  refine ⟨hnew, (keeps_iff hnew _).2 (.inr (List.pairwise_pair.2 fun _ _ => ⟨?_, ?_⟩))⟩
  · decide
  · exact Finset.Subset.refl _

/-- Three nodes are returned to a request for one, and a node with the tag `a|b` to one for `a` and
`b`. -/
theorem cached_answer_unfit :
    newCachedNodeFinder lastUsed defaultCachedNodeFinderConfig 0 = .ok fresh ∧
      (untagged 3).Fits (answer (untagged 3)) ∧
      ¬ fresh.Keeps lastUsed [(untagged 3, atOnce (.var .canceled) [.ok (answer (untagged 3))]),
        (untagged 1, failing (.var .canceled))] ∧
      taggedJoined.Fits (answer taggedJoined) ∧
      ¬ fresh.Keeps lastUsed [(taggedJoined, atOnce (.var .canceled) [.ok (answer taggedJoined)]),
        (taggedApart, failing (.var .canceled))] := by
  refine ⟨rfl, answer_fits (by decide), fun h => ?_, answer_fits (by decide), fun h => ?_⟩
  · have hcount := (h.2.1 (answer (untagged 3)) (by decide)).count
    revert hcount
    decide
  · have htags := (h.2.1 (answer taggedJoined) (by decide)).tags ⟨[], taggedJoined.tags⟩ (by decide)
    revert htags
    decide

end CachedNodeFinder

end Client
