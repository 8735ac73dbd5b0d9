import Mathlib.Data.Finset.Union
import Mathlib.Data.Fintype.Basic
import OpenPCC.Lib.Trace
import OpenPCC.Router.Gossip
import OpenPCC.Router.Wire

/-!
# The agents on the nodes (`router/agent/agent.go`)

A `Client` sends the events of its node to the routers. `Run` sends a heartbeat and then one at each
tick; `Shutdown` stops `Run` and sends a shutdown event. Both send under the lock, with the next
index. A heartbeat is sent with the context of the client, which `Shutdown` has cancelled before it
takes the lock; a request with a cancelled context is not made.

A step of the model is one operation of `Run` or of a call of `Shutdown` on the lock, the context or
the network. Requests may fail at any point. What was sent may arrive at any router late, more than
once or never (`Fleet`).
-/

namespace Router

open Go

/-! ## Events as messages -/

def Heartbeat.marshalProto (order : TagOrder) (h : Heartbeat) : Pb.Heartbeat :=
  match h.routingInfoURL with
  | some url => { routingInfoUrl := some url }
  -- a nil info is an empty message
  | none => { routingInfo := some ((h.routingInfo.map (RoutingInfo.marshalProto order)).getD {}) }

def NodeEvent.marshalProto (w : Wire) (order : TagOrder) (e : NodeEvent) : Pb.NodeEvent :=
  { eventIndex := e.eventIndex
    nodeId := w.uuidString e.nodeID
    timestamp := some e.timestamp
    heartbeat := e.heartbeat.map (Heartbeat.marshalProto order)
    hasShutdown := e.heartbeat.isNone }

/-! ## The client -/

/-- `agent.Config`, without the interval. -/
structure AgentConfig where
  tags : List Bytes := []
  nodeTargetURL : Bytes := []
  nodeHealthcheckURL : Bytes := []
  routerBaseURL : Bytes := []
  deriving DecidableEq

/-- The goroutine that holds the lock: `Run`, or the `i`-th call of `Shutdown`. -/
inductive Sender where
  | run
  | shutdown (i : Nat)
  deriving DecidableEq

/-- Where `sendEvent` is: before the request, in the request, at its end. -/
inductive SendPhase where
  | preparing
  | requesting (endpoint : Bytes)
  | finished
  deriving DecidableEq

/-- The event that is sent under the lock. -/
structure Sending where
  event : NodeEvent
  sender : Sender
  phase : SendPhase := .preparing
  deriving DecidableEq

/-- Where `Run` is: not called; before it takes the lock; in `sendEvent`; in the `select`. -/
inductive RunState where
  | notCalled
  | locking
  | sending
  | selecting
  | returned
  deriving DecidableEq

/-- Where a call of `Shutdown` is: before it cancels the context; before it takes the lock; in
`sendEvent`. -/
inductive ShutdownState where
  | cancelling
  | locking
  | sending
  | returned
  deriving DecidableEq

structure AgentClient where
  id : UUID
  routingInfo : RoutingInfo
  routerBaseURL : Option Bytes := none
  hasRouterFinder : Bool := false
  ctxDone : Bool := false
  eventIndex : Int := 0
  mu : Option Sending := none
  run : RunState := .notCalled
  shutdowns : List ShutdownState := []
  /-- the requests that were made, with their endpoints, from the first -/
  sent : List (Bytes × NodeEvent) := []
  deriving DecidableEq

inductive AgentAct where
  | run
  | tick
  | runReturns
  | shutdown
  | cancel (i : Nat)
  /-- the lock is taken at the time `now` -/
  | lock (sender : Sender) (now : Time)
  /-- the request is begun, with what the finder returns and the index that is drawn -/
  | request (addrs : Except Err (List Bytes)) (i : Nat)
  | transmit
  | fail
  | unlock

namespace AgentClient

def parseAbsoluteURL (w : Wire) (s : Bytes) : Except Err Bytes := do
  let result ← w.urlParse s
  if result.scheme = [] then .error (.new "wanted absolute url, got %s" [.str s])
  else return result.string

/-- The base URL of the router may be missing. -/
def parseRouterBaseURL (w : Wire) (s : Bytes) : Except Err (Option Bytes) :=
  if s = [] then .ok none
  else do
    let rBaseURL ← (parseAbsoluteURL w s).mapError (.errorf "invalid router base url: %w" [])
    return some rBaseURL

/-- `New`. -/
def new (w : Wire) (id : UUID) (cfg : AgentConfig) (evidence : Attest.SignedEvidenceList) :
    Except Err AgentClient :=
  if evidence.length = 0 then .error (.new "missing evidence" [])
  else do
    let tags ← (tagsFromSlice cfg.tags).mapError (.errorf "invalid tags: %w" [])
    let url ← (parseAbsoluteURL w cfg.nodeTargetURL).mapError
      (.errorf "invalid node target url: %w" [])
    let healthcheckURL ← (parseAbsoluteURL w cfg.nodeHealthcheckURL).mapError
      (.errorf "invalid node healthcheck url: %w" [])
    let routerBaseURL ← parseRouterBaseURL w cfg.routerBaseURL
    return { id, routingInfo := ⟨url, healthcheckURL, tags, evidence⟩, routerBaseURL }

variable (c : AgentClient)

/-- The candidates of `randomRouterURL`, if the finder returns `addrs`. -/
def routerURLs (addrs : Except Err (List Bytes)) : Except Err (List Bytes) := do
  let base := c.routerBaseURL.toList.map (· ++ "/node-events".toUTF8.toList)
  let addrs := if c.hasRouterFinder then addrs else .ok []
  let found ← addrs.mapError (.errorf "failed to find router addresses: %w" [])
  let candidates := base ++ found.map fun addr =>
    "http://".toUTF8.toList ++ addr ++ ":8000/node-events".toUTF8.toList
  if candidates.length = 0 then .error (.new "no candidate URLs found" []) else return candidates

/-- The event of `sendHeartbeat`. -/
def heartbeat (now : Time) : NodeEvent :=
  ⟨c.eventIndex, c.id, now, some ⟨none, some c.routingInfo⟩⟩

/-- The event of `sendShutdown`. -/
def shutdownEvent (now : Time) : NodeEvent := ⟨c.eventIndex, c.id, now, none⟩

def lock : Sender → Time → Option AgentClient
  | .run, now =>
    match c.run with
    | .locking =>
      some { c with mu := some { event := c.heartbeat now, sender := .run }, run := .sending }
    | _ => none
  | .shutdown i, now =>
    match c.shutdowns[i]? with
    | some .locking =>
      some { c with
        mu := some { event := c.shutdownEvent now, sender := .shutdown i }
        shutdowns := c.shutdowns.set i .sending }
    | _ => none

/-- The request is made, unless it is one of `Run` and the context of the client is cancelled. -/
def request (s : Sending) (endpoint : Bytes) : AgentClient :=
  match s.sender, c.ctxDone with
  | .run, true => { c with mu := some { s with phase := .finished } }
  | _, _ => { c with mu := some { s with phase := .requesting endpoint } }

/-- The deferred function: the index is increased and the lock released. -/
def unlock : Sender → AgentClient
  | .run => { c with eventIndex := c.eventIndex + 1, mu := none, run := .selecting }
  | .shutdown i =>
    { c with
      eventIndex := c.eventIndex + 1
      mu := none
      shutdowns := c.shutdowns.set i .returned }

def step : AgentAct → Option AgentClient
  | .run =>
    match c.run with
    | .notCalled => some { c with run := .locking }
    | _ => none
  | .tick =>
    match c.run with
    | .selecting => some { c with run := .locking }
    | _ => none
  | .runReturns =>
    match c.run, c.ctxDone with
    | .selecting, true => some { c with run := .returned }
    | _, _ => none
  | .shutdown => some { c with shutdowns := c.shutdowns ++ [.cancelling] }
  | .cancel i =>
    match c.shutdowns[i]? with
    | some .cancelling =>
      some { c with ctxDone := true, shutdowns := c.shutdowns.set i .locking }
    | _ => none
  | .lock sender now =>
    -- the clock does not show the zero time
    if c.mu = none ∧ now ≠ 0 then c.lock sender now else none
  | .request addrs i =>
    match c.mu with
    | some s =>
      match s.phase, c.routerURLs addrs with
      | .preparing, .ok candidates => candidates[i]?.map (c.request s)
      | _, _ => none
    | none => none
  | .transmit =>
    match c.mu with
    | some s =>
      match s.phase with
      | .requesting endpoint =>
        some { c with
          mu := some { s with phase := .finished }
          sent := c.sent ++ [(endpoint, s.event)] }
      | _ => none
    | none => none
  | .fail => c.mu.map fun s => { c with mu := some { s with phase := .finished } }
  | .unlock =>
    match c.mu with
    | some s =>
      match s.phase with
      | .finished => some (c.unlock s.sender)
      | _ => none
    | none => none

/-- The act can happen. -/
def Enabled (a : AgentAct) : Prop := (c.step a).isSome

instance (a : AgentAct) : Decidable (c.Enabled a) :=
  inferInstanceAs (Decidable ((c.step a).isSome = true))

def next (a : AgentAct) : AgentClient := (c.step a).getD c

/-- The events that were sent. -/
def events : Finset NodeEvent := (c.sent.map (·.2)).toFinset

end AgentClient

/-! ## Agents and routers -/

/-- The eviction of a node by the manager of a router: nothing is left of what was known of it. -/
def Replica.evict (r : Replica) (id : UUID) : Replica where
  state := ⟨r.state.agents.erase id, r.state.health.erase id⟩
  seen := r.seen.filter (·.nodeID ≠ id)

/-- The agents of the nodes `ν` and the routers `ι`. -/
structure Fleet (ν ι : Type) where
  clients : ν → AgentClient
  cluster : Cluster ι := {}

namespace Fleet

variable {ν ι : Type}

/-- What the agents have sent. -/
def events [Fintype ν] (f : Fleet ν ι) : Finset NodeEvent :=
  Finset.univ.biUnion fun n => (f.clients n).events

/-- What the routers accept of it: the id has the version 7, and a heartbeat has tags. -/
def readable [Fintype ν] (w : Wire) (f : Fleet ν ι) : Finset NodeEvent :=
  f.events.filter fun e => w.version e.nodeID = 7 ∧ ∀ r ∈ e.routingInfo, r.tags.Nonempty

/-- An agent goes on; a router receives what an agent has sent and merges it if it can be decoded;
or a router checks a node, evicts one, sends its state or receives one. -/
inductive Step [DecidableEq ν] [DecidableEq ι] (w : Wire) (f : Fleet ν ι) : Fleet ν ι → Prop where
  | client (n : ν) {a : AgentAct} {c : AgentClient} (h : (f.clients n).step a = some c) :
    Step w f { f with clients := Function.update f.clients n c }
  | deliver (i : ι) (n : ν) (order : TagOrder) {e e' : NodeEvent}
    (hsent : e ∈ (f.clients n).events)
    (hread : NodeEvent.unmarshalProto w (e.marshalProto w order) = .ok e') :
    Step w f { f with cluster := f.cluster.set i ((f.cluster.routers i).mergeNodeEvent e') }
  | healthcheck (i : ι) (hc : Check) :
    Step w f { f with cluster := f.cluster.set i ((f.cluster.routers i).mergeHealthcheck hc) }
  | evict (i : ι) (id : UUID) :
    Step w f { f with cluster := f.cluster.set i ((f.cluster.routers i).evict id) }
  | send (i : ι) : Step w f { f with cluster := f.cluster.send i }
  | receive (i : ι) {other : Replica} (hsent : other ∈ f.cluster.sent) :
    Step w f { f with cluster := f.cluster.set i ((f.cluster.routers i).mergeState other) }

/-- The states that a run leads to. -/
def Runs [DecidableEq ν] [DecidableEq ι] (w : Wire) : Fleet ν ι → Fleet ν ι → Prop :=
  Relation.ReflTransGen (Step w)

/-- The agents are new, each with an id of its own, and the routers know nothing. -/
structure Start (w : Wire) (f : Fleet ν ι) : Prop where
  clients : ∀ n, ∃ id cfg evidence c, AgentClient.new w id cfg evidence = .ok c ∧
    ∃ finder, f.clients n = { c with hasRouterFinder := finder }
  ids : Function.Injective fun n => (f.clients n).id
  cluster : f.cluster = {}

end Fleet

end Router
