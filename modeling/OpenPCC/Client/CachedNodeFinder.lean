import Mathlib.Data.Finset.Sort
import OpenPCC.Go.Outcome
import OpenPCC.Lib.Lru

/-!
# Cached node lookups (`cached_node_finder.go`)

`findVerifiedNodes` keeps the nodes that the underlying finder returned for a key, which it makes
from the tags of the request (`normalizedCacheKey`), and answers later requests with that key from
the cache until the entry expires. `ListCachedVerifiedNodes` is such a request for 100 nodes.

What a call meets is a `CallEnv`: the time that passes, the replies of the underlying finder to its
attempts, and what is drawn for the shuffling. Clocks only go forward. The cache of the `lru`
package is a `CacheLib`.
-/

namespace Client

open Go

/-- The tags of a node's manifest are what is looked at. -/
structure VerifiedNode where
  id : Bytes
  tags : Finset Bytes
  deriving DecidableEq

structure CacheEntry where
  nodes : List VerifiedNode
  expiresAt : Int
  deriving DecidableEq

structure CachedNodeFinderConfig where
  expiresAfter : Int
  maxCacheSize : Int
  deriving DecidableEq

/-- `DefaultCachedNodeFinderConfig`, in nanoseconds. -/
def defaultCachedNodeFinderConfig : CachedNodeFinderConfig := ⟨60 * 10 ^ 9, 100⟩

/-- The arguments of a call, with the order in which `Slice` lists the tags. -/
structure Request where
  maxNodes : Int
  tags : Finset Bytes
  slice : List Bytes
  nodup : slice.Nodup
  toFinset : slice.toFinset = tags

/-- `sort.Strings`. -/
def sortStrings (s : List Bytes) : List Bytes := s.insertionSort (· ≤ ·)

/-- `normalizedCacheKey` of the tags that `Slice` lists; `|` is byte 124. -/
def normalizedCacheKey (tagSlice : List Bytes) : Bytes :=
  if tagSlice.length = 0 then [] else [124].intercalate (sortStrings tagSlice)

def Request.cacheKey (r : Request) : Bytes := normalizedCacheKey r.slice

/-- What a call of `FindVerifiedNodes` meets. -/
structure CallEnv where
  /-- the time since the last event -/
  wait : Nat
  /-- the time that the underlying finder takes -/
  fetch : Nat
  /-- the results of `f.finder.FindVerifiedNodes`, one for each attempt -/
  replies : List (Except Err (List VerifiedNode))
  /-- the error with which the backoff stops -/
  stop : Err
  /-- `rand.Int(rand.Reader, i + 1)` -/
  draw : (i : Nat) → Except Err (Fin (i + 1))

/-- `C` is the type of `lru.Cache[string, *cacheEntry]`. -/
structure CachedNodeFinder (C : Type) where
  cfg : CachedNodeFinderConfig
  cache : C
  /-- the time of the last event -/
  now : Int

/-- `NewCachedNodeFinder` at the time `now`. -/
def newCachedNodeFinder {C : Type} (lru : CacheLib Bytes CacheEntry Err C)
    (cfg : CachedNodeFinderConfig) (now : Int) : Outcome (CachedNodeFinder C) :=
  match lru.new cfg.maxCacheSize with
  | .error _ => .panic
  | .ok cache => .ok ⟨cfg, cache, now⟩

def CacheEntry.isExpired (e : CacheEntry) (now : Int) : Bool := e.expiresAt < now

/-- `backoff.Retry`: an error is permanent, and a reply without nodes is tried again. -/
def retryFind (stop : Err) : List (Except Err (List VerifiedNode)) → Except Err (List VerifiedNode)
  | [] => .error stop
  | .error err :: _ => .error err
  | .ok [] :: replies => retryFind stop replies
  | .ok (node :: nodes) :: _ => .ok (node :: nodes)

/-- `cryptoShuffle` from index `i` down. -/
def cryptoShuffle {α : Type} (draw : (i : Nat) → Except Err (Fin (i + 1))) :
    Nat → Array α → Except Err (Array α)
  | 0, nodes => .ok nodes
  | i + 1, nodes =>
    match draw (i + 1) with
    | .error err => .error err
    | .ok j => cryptoShuffle draw i (nodes.swapIfInBounds (i + 1) j)

def shuffleNodes (draw : (i : Nat) → Except Err (Fin (i + 1))) (originalNodes : List VerifiedNode) :
    Except Err (List VerifiedNode) :=
  (cryptoShuffle draw (originalNodes.length - 1) originalNodes.toArray).map Array.toList

namespace CachedNodeFinder

variable {C : Type} (lru : CacheLib Bytes CacheEntry Err C)

/-- The part of `FindVerifiedNodes` after a miss. -/
def fetchNodes (f : CachedNodeFinder C) (r : Request) (env : CallEnv) :
    Except Err (List VerifiedNode) × CachedNodeFinder C :=
  let later := f.now + env.fetch
  match retryFind env.stop env.replies with
  | .error err => (.error err, { f with now := later })
  | .ok nodes =>
    (shuffleNodes env.draw nodes,
      { f with
        cache := lru.add f.cache r.cacheKey ⟨nodes, later + f.cfg.expiresAfter⟩
        now := later })

def findVerifiedNodes (f : CachedNodeFinder C) (r : Request) (env : CallEnv) :
    Except Err (List VerifiedNode) × CachedNodeFinder C :=
  let now := f.now + env.wait
  let got := lru.get f.cache r.cacheKey
  let f := { f with cache := got.2, now := now }
  match got.1 with
  | none => f.fetchNodes lru r env
  | some entry =>
    if entry.isExpired now then f.fetchNodes lru r env else (shuffleNodes env.draw entry.nodes, f)

end CachedNodeFinder

/-! ## The promise of a finder -/

/-- The nodes are an answer to the request. -/
structure Request.Fits (r : Request) (nodes : List VerifiedNode) : Prop where
  count : nodes.length ≤ r.maxNodes
  tags : ∀ node ∈ nodes, r.tags ⊆ node.tags

/-- The underlying finder keeps its promise in the call. -/
def CallEnv.Honest (env : CallEnv) (r : Request) : Prop :=
  ∀ nodes, .ok nodes ∈ env.replies → r.Fits nodes

/-- Every successful call returns an answer to its request. -/
def CachedNodeFinder.Keeps {C : Type} (lru : CacheLib Bytes CacheEntry Err C) :
    CachedNodeFinder C → List (Request × CallEnv) → Prop
  | _, [] => True
  | f, (r, env) :: calls =>
    (∀ nodes, (f.findVerifiedNodes lru r env).1 = .ok nodes → r.Fits nodes) ∧
      Keeps lru (f.findVerifiedNodes lru r env).2 calls

/-- An answer to `r` is one to `r'`, or the two have different keys, or `r` has no answer. -/
def Request.Compatible (r r' : Request) : Prop :=
  r.cacheKey = r'.cacheKey → 1 ≤ r.maxNodes → r.maxNodes ≤ r'.maxNodes ∧ r'.tags ⊆ r.tags

end Client
