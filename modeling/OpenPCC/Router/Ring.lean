import Mathlib.Data.Finset.Dedup
import Mathlib.Data.Finset.Erase
import Mathlib.Data.Finset.Insert
import Mathlib.Data.List.AList
import Mathlib.Data.Set.Defs
import OpenPCC.Go.Crc32
import OpenPCC.Lib.Trace
import OpenPCC.Router.Health

/-!
# The ring of routers (`router/ring.go`)

The routers of a cluster share the health checks by consistent hashing: every router has a hundred
virtual positions on a ring of `uint32` hashes, and a router checks the nodes for whose hash it has
the next position. `queryHealthcheckURLs` finds these nodes in one sweep over the nodes in the order
of their hashes. It reads the map of nodes in any order and sorts it with an unstable sort, so the
order of nodes with equal hashes is an argument.
-/

namespace Router

open Go

/-- The 16 bytes of an id. -/
def UUID.bytes (id : UUID) : Bytes :=
  (List.range 16).reverse.map fun i => UInt8.ofNat (id.toNat >>> (8 * i))

def virtualNodesPerRouter : Nat := 100

structure Ring where
  routers : Finset UUID := ∅
  posToRouter : Nat → Option UUID := fun _ => none
  positions : List Nat := []

def newRing : Ring := {}

/-- The position of the virtual node `i`. -/
def virtualPosition (routerID : UUID) (i : Nat) : Nat :=
  checksumIEEE (BigEndian.putUint32 (UInt32.ofNat i) ++ routerID.bytes)

def virtualPositions (routerID : UUID) : List Nat :=
  (List.range virtualNodesPerRouter).map (virtualPosition routerID)

namespace Ring

variable (r : Ring) (routerID : UUID)

/-- `r.posToRouter[pos]`; a missing key reads as the zero id. -/
def routerAt (pos : Nat) : UUID := (r.posToRouter pos).getD 0

def addRouter : Ring :=
  if routerID ∈ r.routers then r
  else
    { routers := insert routerID r.routers
      posToRouter := (virtualPositions routerID).foldl
        (fun posToRouter pos => Function.update posToRouter pos (some routerID)) r.posToRouter
      positions := (r.positions ++ virtualPositions routerID).insertionSort (· ≤ ·) }

/-- The loop of `removeRouter`: the map and the new positions. -/
def removePositions (posToRouter : Nat → Option UUID) :
    List Nat → (Nat → Option UUID) × List Nat
  | [] => (posToRouter, [])
  | pos :: positions =>
    if (posToRouter pos).getD 0 ≠ routerID then
      let (posToRouter, newPositions) := removePositions posToRouter positions
      (posToRouter, pos :: newPositions)
    else removePositions (Function.update posToRouter pos none) positions

def removeRouter : Ring :=
  if routerID ∉ r.routers then r
  else
    let (posToRouter, newPositions) := removePositions routerID r.posToRouter r.positions
    { routers := r.routers.erase routerID, posToRouter, positions := newPositions }

end Ring

/-! ## Queries -/

/-- The nodes with the URLs of their health checks. -/
abbrev Targets := AList fun _ : UUID => Bytes

/-- The position of a node. -/
def nodePosition (nodeID : UUID) : Nat := checksumIEEE nodeID.bytes

/-- The nodes sorted by their positions. -/
structure SortedNodes (nodes : Targets) (nodeIDs : List UUID) : Prop where
  perm : nodeIDs.Perm nodes.keys
  sorted : nodeIDs.Pairwise fun id id' => nodePosition id ≤ nodePosition id'

namespace Ring

variable (r : Ring) (routerID : UUID)

/-- `posIndex` after a node with the given position. -/
def nextIndex (posIndex position : Nat) : Nat :=
  let posIndex :=
    if posIndex < r.positions.length ∧ r.positions.getD posIndex 0 < position then posIndex + 1
    else posIndex
  -- wrap around at the end
  if posIndex = r.positions.length then 0 else posIndex

/-- The loop over the sorted nodes. -/
def queryLoop (nodes : Targets) (posIndex : Nat) (out : Targets) : List UUID → Targets
  | [] => out
  | nodeID :: nodeIDs =>
    let posIndex := r.nextIndex posIndex (nodePosition nodeID)
    let out :=
      if r.routerAt (r.positions.getD posIndex 0) = routerID then
        out.insert nodeID ((nodes.lookup nodeID).getD [])
      else out
    queryLoop nodes posIndex out nodeIDs

def queryHealthcheckURLs (nodes : Targets) (nodeIDs : List UUID) : Targets :=
  if r.positions.length = 0 ∨ nodes.keys.length = 0 then ∅
  else r.queryLoop routerID nodes 0 ∅ nodeIDs

/-! ## Consistent hashing -/

/-- The first position at or after a hash, or the smallest one if there is none. -/
def successor (hash : Nat) : Option Nat :=
  (r.positions.find? fun pos => decide (hash ≤ pos)).or r.positions.head?

/-- The node belongs to the router of the position that follows its own. -/
def Assigned (nodeID : UUID) : Prop :=
  ∃ pos, r.successor (nodePosition nodeID) = some pos ∧ r.routerAt pos = routerID

/-- A query returns the nodes that belong to the router, with their URLs. -/
def QueriesAssigned (nodes : Targets) (nodeIDs : List UUID) : Prop :=
  ∀ nodeID url, (r.queryHealthcheckURLs routerID nodes nodeIDs).lookup nodeID = some url ↔
    nodes.lookup nodeID = some url ∧ r.Assigned routerID nodeID

/-- The routers check every node, each node by one of them. Every router reads the nodes in an order
of its own. -/
def Partitions : Prop :=
  ∀ (nodes : Targets) (order : UUID → List UUID), (nodes.keys.map nodePosition).Nodup →
    (∀ id, SortedNodes nodes (order id)) →
    (∀ id ∈ r.routers, ∀ id' ∈ r.routers, id ≠ id' →
      (r.queryHealthcheckURLs id nodes (order id)).keys.Disjoint
        (r.queryHealthcheckURLs id' nodes (order id')).keys) ∧
    ∀ nodeID url, nodes.lookup nodeID = some url ↔
      ∃ id ∈ r.routers, (r.queryHealthcheckURLs id nodes (order id)).lookup nodeID = some url

/-- The router has the position with the number `i`, counted around the ring. -/
def Owns (i : Nat) : Prop :=
  ∃ pos, r.positions[i % r.positions.length]? = some pos ∧ r.routerAt pos = routerID

/-- The numbers of positions that can be passed up to the node `k` if each node passes one position,
and none that is not below the node. A node above all positions can pass any. -/
def Passable (nodeIDs : List UUID) (k : Nat) : Set Nat :=
  {i | i ≤ k + 1 ∧ ∀ j nodeID, j ≤ k → nodeIDs[j]? = some nodeID →
    (∃ pos ∈ r.positions, nodePosition nodeID ≤ pos) →
    i ≤ (r.positions.countP fun pos => decide (pos < nodePosition nodeID)) + (k - j)}

/-- The numbers of positions that some query can pass, at most one for each hash and none that is
not below it. -/
def Reachable : Set Nat :=
  {i | ∃ x < 2 ^ 32, i ≤ x + 1 ∧ ∀ y ≤ x, (∃ pos ∈ r.positions, y ≤ pos) →
    i ≤ (r.positions.countP fun pos => decide (pos < y)) + (x - y)}

/-! ## Membership -/

/-- A call of `addRouter` or `removeRouter`. -/
inductive Act where
  | add (routerID : UUID)
  | remove (routerID : UUID)
  deriving DecidableEq

def step (r : Ring) : Act → Ring
  | .add routerID => r.addRouter routerID
  | .remove routerID => r.removeRouter routerID

/-- A new ring to which the routers were added. -/
def fresh (routerIDs : List UUID) : Ring := routerIDs.foldl addRouter newRing

/-- The ring is that of its routers, whatever the order in which they are added, and every position
has a router that is present. -/
def Canonical : Prop :=
  (∀ routerIDs : List UUID, routerIDs.Nodup → routerIDs.toFinset = r.routers →
      r = fresh routerIDs) ∧
    ∀ pos ∈ r.positions, ∃ routerID ∈ r.routers, r.posToRouter pos = some routerID

/-- No router is added of which a virtual position is that of a router in the ring. -/
def NoCollision : Act → Prop
  | .add routerID => routerID ∉ r.routers →
      ∀ id ∈ r.routers, (virtualPositions routerID).Disjoint (virtualPositions id)
  | .remove _ => True

end Ring

end Router
