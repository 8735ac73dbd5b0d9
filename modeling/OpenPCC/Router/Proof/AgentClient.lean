import OpenPCC.Router.AgentClient
import OpenPCC.Router.Proof.Wire

/-!
# What the agents send is consistent

The routers rely on the events of a node being `Consistent`. The agents send no others: the lock
orders the events by their index, and a heartbeat that takes the lock after a shutdown finds the
context cancelled.

* `AgentMoves`: the steps of an agent.
* `AgentClient.Inv`: the events that were sent are in the order of their indices, and only shutdowns
  follow a shutdown. A step keeps it (`Inv.step`).
* `eq_of_unmarshalProto`: an event that a router accepts is the one that was sent.
* `Replica.Sound.evict`: an eviction takes the agent and its events away, so a router still knows of
  the agents what the events behind its state say.
* `Fleet.Inv`: the agents send what they should, and the states of the routers are sound.
-/

namespace Router

open Go

/-! ## Steps of an agent -/

inductive AgentMoves (c : AgentClient) : AgentClient → Prop where
  | setRun (run : RunState) : AgentMoves c { c with run }
  | shutdown : AgentMoves c { c with shutdowns := c.shutdowns ++ [.cancelling] }
  | cancel {i : Nat} : AgentMoves c { c with
      ctxDone := true, shutdowns := c.shutdowns.set i .locking }
  | lockRun {now : Time} : c.mu = none → now ≠ 0 → AgentMoves c { c with
      mu := some { event := c.heartbeat now, sender := .run }, run := .sending }
  | lockShutdown {i : Nat} {now : Time} : c.mu = none → now ≠ 0 →
      c.shutdowns[i]? = some .locking → AgentMoves c { c with
        mu := some { event := c.shutdownEvent now, sender := .shutdown i }
        shutdowns := c.shutdowns.set i .sending }
  | fail {s : Sending} : c.mu = some s → AgentMoves c { c with
      mu := some { s with phase := .finished } }
  | request {s : Sending} {endpoint : Bytes} : c.mu = some s → s.phase = .preparing →
      (s.sender = .run → c.ctxDone = false) → AgentMoves c { c with
        mu := some { s with phase := .requesting endpoint } }
  | transmit {s : Sending} {endpoint : Bytes} : c.mu = some s → s.phase = .requesting endpoint →
      AgentMoves c { c with
        mu := some { s with phase := .finished }
        sent := c.sent ++ [(endpoint, s.event)] }
  | unlockRun {s : Sending} : c.mu = some s → AgentMoves c { c with
      eventIndex := c.eventIndex + 1, mu := none, run := .selecting }
  | unlockShutdown {s : Sending} {i : Nat} : c.mu = some s → s.sender = .shutdown i →
      AgentMoves c { c with
        eventIndex := c.eventIndex + 1
        mu := none
        shutdowns := c.shutdowns.set i .returned }

namespace AgentClient

variable {c c' : AgentClient} {a : AgentAct}

theorem moves_of_lock {sender : Sender} {now : Time} (hmu : c.mu = none) (hnow : now ≠ 0)
    (h : c.lock sender now = some c') : AgentMoves c c' := by
  unfold lock at h
  split at h
  · split at h
    · cases h
      exact .lockRun hmu hnow
    · cases h
  · split at h
    · next hi =>
      cases h
      exact .lockShutdown hmu hnow hi
    · cases h

theorem moves_of_request {s : Sending} (hmu : c.mu = some s) (hphase : s.phase = .preparing)
    (endpoint : Bytes) : AgentMoves c (c.request s endpoint) := by
  unfold request
  split
  · exact .fail hmu
  · next hno =>
    refine .request hmu hphase fun hrun => ?_
    cases hctx : c.ctxDone with
    | false => rfl
    | true => exact (hno hrun hctx).elim

theorem moves_of_unlock {s : Sending} (hmu : c.mu = some s) :
    AgentMoves c (c.unlock s.sender) := by
  cases hsender : s.sender with
  | run => exact .unlockRun hmu
  | shutdown i => exact .unlockShutdown hmu hsender

theorem moves_of_step (h : c.step a = some c') : AgentMoves c c' := by
  cases a with
  | run | tick =>
    simp only [step] at h
    split at h
    · cases h
      exact .setRun _
    · cases h
  | runReturns =>
    simp only [step] at h
    split at h
    · cases h
      exact .setRun _
    · cases h
  | shutdown =>
    cases h
    exact .shutdown
  | cancel i =>
    simp only [step] at h
    split at h
    · cases h
      exact .cancel
    · cases h
  | lock sender now =>
    simp only [step] at h
    split at h
    · next hlock => exact moves_of_lock hlock.1 hlock.2 h
    · cases h
  | request addrs i =>
    simp only [step] at h
    split at h
    · next hmu =>
      split at h
      · next hphase _ =>
        obtain ⟨endpoint, -, rfl⟩ := Option.map_eq_some_iff.1 h
        exact moves_of_request hmu hphase endpoint
      · cases h
    · cases h
  | transmit =>
    simp only [step] at h
    split at h
    · next hmu =>
      split at h
      · next hphase =>
        cases h
        exact .transmit hmu hphase
      · cases h
    · cases h
  | fail =>
    obtain ⟨s, hmu, rfl⟩ := Option.map_eq_some_iff.1 h
    exact .fail hmu
  | unlock =>
    simp only [step] at h
    split at h
    · next hmu =>
      split at h
      · cases h
        exact moves_of_unlock hmu
      · cases h
    · cases h

/-! ## What an agent has sent -/

end AgentClient

/-- An event of the agent with this id and this routing info. -/
structure NodeEvent.Of (id : UUID) (info : RoutingInfo) (e : NodeEvent) : Prop where
  nodeID : e.nodeID = id
  timestamp : e.timestamp ≠ 0
  index : 0 ≤ e.eventIndex
  heartbeat : ∀ h, e.heartbeat = some h → h = ⟨none, some info⟩

/-- The order of two events of an agent. -/
def Precedes (e e' : NodeEvent) : Prop :=
  e.eventIndex < e'.eventIndex ∧ (e.isShutdownEvent = true → e'.isShutdownEvent = true)

namespace AgentClient

variable {c c' : AgentClient} {id : UUID} {info : RoutingInfo}

/-- The event that is sent under the lock. -/
structure SendingInv (c : AgentClient) (s : Sending) : Prop where
  event : s.event.Of c.id c.routingInfo
  index : s.event.eventIndex = c.eventIndex
  shutdown : s.event.isShutdownEvent = true → c.ctxDone = true
  run : s.event.isShutdownEvent = false → s.sender = .run
  pending : s.phase ≠ .finished → ∀ e ∈ c.sent.map (·.2), e.eventIndex < c.eventIndex
  /-- a heartbeat whose request was begun follows no shutdown -/
  requesting : ∀ endpoint, s.phase = .requesting endpoint →
    ∀ e ∈ c.sent.map (·.2), e.isShutdownEvent = true → s.event.isShutdownEvent = true

structure Inv (id : UUID) (info : RoutingInfo) (c : AgentClient) : Prop where
  id : c.id = id
  routingInfo : c.routingInfo = info
  nonneg : 0 ≤ c.eventIndex
  calls : ∀ call ∈ c.shutdowns, call ≠ .cancelling → c.ctxDone = true
  event : ∀ e ∈ c.sent.map (·.2), e.Of c.id c.routingInfo
  index : ∀ e ∈ c.sent.map (·.2), e.eventIndex ≤ c.eventIndex
  free : c.mu = none → ∀ e ∈ c.sent.map (·.2), e.eventIndex < c.eventIndex
  order : (c.sent.map (·.2)).Pairwise Precedes
  shutdown : ∀ e ∈ c.sent.map (·.2), e.isShutdownEvent = true → c.ctxDone = true
  sending : ∀ s, c.mu = some s → SendingInv c s

/-- Cancelling the context and waiting for the lock change nothing that is said of the events. -/
theorem SendingInv.frame {s : Sending} (h : SendingInv c s) {run : RunState}
    {shutdowns : List ShutdownState} {ctxDone : Bool} (hctx : c.ctxDone = true → ctxDone = true) :
    SendingInv { c with run, shutdowns, ctxDone } s where
  event := h.event
  index := h.index
  shutdown hs := hctx (h.shutdown hs)
  run := h.run
  pending := h.pending
  requesting := h.requesting

theorem Inv.frame (h : Inv id info c) {run : RunState} {shutdowns : List ShutdownState}
    {ctxDone : Bool} (hctx : c.ctxDone = true → ctxDone = true)
    (hcalls : ∀ call ∈ shutdowns, call ≠ .cancelling → ctxDone = true) :
    Inv id info { c with run, shutdowns, ctxDone } where
  id := h.id
  routingInfo := h.routingInfo
  nonneg := h.nonneg
  calls := hcalls
  event := h.event
  index := h.index
  free := h.free
  order := h.order
  shutdown e he hs := hctx (h.shutdown e he hs)
  sending s hs := (h.sending s hs).frame hctx

theorem Inv.ctxDone_of_call (h : Inv id info c) {i : Nat} {call : ShutdownState}
    (hi : c.shutdowns[i]? = some call) (hcall : call ≠ .cancelling) : c.ctxDone = true :=
  h.calls call (List.mem_of_getElem? hi) hcall

theorem Inv.lock (h : Inv id info c) (hmu : c.mu = none) {s : Sending} {run : RunState}
    {shutdowns : List ShutdownState} (hphase : s.phase = .preparing)
    (hevent : s.event.Of c.id c.routingInfo) (hindex : s.event.eventIndex = c.eventIndex)
    (hshutdown : s.event.isShutdownEvent = true → c.ctxDone = true)
    (hrun : s.event.isShutdownEvent = false → s.sender = .run)
    (hcalls : ∀ call ∈ shutdowns, call ≠ .cancelling → c.ctxDone = true) :
    Inv id info { c with mu := some s, run, shutdowns } where
  id := h.id
  routingInfo := h.routingInfo
  nonneg := h.nonneg
  calls := hcalls
  event := h.event
  index := h.index
  free hnone := by cases hnone
  order := h.order
  shutdown := h.shutdown
  sending s' hs' := by
    cases hs'
    refine ⟨hevent, hindex, hshutdown, hrun, fun _ => h.free hmu, fun endpoint hreq => ?_⟩
    rw [hphase] at hreq
    cases hreq

theorem Inv.unlock (h : Inv id info c) {run : RunState} {shutdowns : List ShutdownState}
    (hcalls : ∀ call ∈ shutdowns, call ≠ .cancelling → c.ctxDone = true) :
    Inv id info { c with eventIndex := c.eventIndex + 1, mu := none, run, shutdowns } where
  id := h.id
  routingInfo := h.routingInfo
  nonneg := by
    have := h.nonneg
    show 0 ≤ c.eventIndex + 1
    omega
  calls := hcalls
  event := h.event
  index e he := (h.index e he).trans (by simp)
  free _ e he := Int.lt_add_one_of_le (h.index e he)
  order := h.order
  shutdown := h.shutdown
  sending s hs := by cases hs

theorem Inv.transmit (h : Inv id info c) {s : Sending} {endpoint : Bytes} (hmu : c.mu = some s)
    (hphase : s.phase = .requesting endpoint) :
    Inv id info { c with
      mu := some { s with phase := .finished }
      sent := c.sent ++ [(endpoint, s.event)] } := by
  have hs := h.sending s hmu
  have hsent : (c.sent ++ [(endpoint, s.event)]).map (·.2) = c.sent.map (·.2) ++ [s.event] := by
    simp
  have hpending := hs.pending (by rw [hphase]; exact SendPhase.noConfusion)
  have hall : ∀ {P : NodeEvent → Prop}, (∀ e ∈ c.sent.map (·.2), P e) → P s.event →
      ∀ e ∈ (c.sent ++ [(endpoint, s.event)]).map (·.2), P e := by
    intro P hold hnew e he
    rw [hsent, List.mem_append, List.mem_singleton] at he
    rcases he with he | rfl
    · exact hold e he
    · exact hnew
  refine ⟨h.id, h.routingInfo, h.nonneg, h.calls, hall h.event hs.event,
    hall h.index hs.index.le, fun hnone => (by cases hnone), ?_, hall h.shutdown hs.shutdown, ?_⟩
  · show ((c.sent ++ [(endpoint, s.event)]).map (·.2)).Pairwise Precedes
    rw [hsent, List.pairwise_append]
    refine ⟨h.order, List.pairwise_singleton .., fun e he e' he' => ?_⟩
    rw [List.mem_singleton.1 he']
    exact ⟨(hpending e he).trans_eq hs.index.symm, hs.requesting endpoint hphase e he⟩
  · intro s' hs'
    cases hs'
    exact ⟨hs.event, hs.index, hs.shutdown, hs.run, fun hne => absurd rfl hne,
      fun endpoint hreq => by cases hreq⟩

theorem Inv.step (h : Inv id info c) (hmoves : AgentMoves c c') : Inv id info c' := by
  cases hmoves with
  | setRun run => exact h.frame (fun hctx => hctx) h.calls
  | shutdown =>
    refine h.frame (fun hctx => hctx) fun call hcall hne => ?_
    rcases List.mem_append.1 hcall with hcall | hcall
    · exact h.calls call hcall hne
    · exact absurd (List.mem_singleton.1 hcall) hne
  | cancel => exact h.frame (fun _ => rfl) fun _ _ _ => rfl
  | @lockRun now hmu hnow =>
    refine h.lock hmu rfl ⟨rfl, hnow, h.nonneg, fun hb hhb => ?_⟩ rfl ?_ (fun _ => rfl) h.calls
    · cases hhb
      rfl
    · intro hs
      cases hs
  | @lockShutdown i now hmu hnow hi =>
    have hctx := h.ctxDone_of_call hi (by decide)
    refine h.lock hmu rfl ⟨rfl, hnow, h.nonneg, fun hb hhb => ?_⟩ rfl (fun _ => hctx) ?_
      fun _ _ _ => hctx
    · cases hhb
    · intro hs
      cases hs
  | @fail s hmu =>
    have hs := h.sending s hmu
    refine { h with free := fun hnone => (by cases hnone), sending := fun s' hs' => ?_ }
    cases hs'
    exact ⟨hs.event, hs.index, hs.shutdown, hs.run, fun hne => absurd rfl hne,
      fun endpoint hreq => by cases hreq⟩
  | @request s endpoint hmu hphase hrun =>
    have hs := h.sending s hmu
    refine { h with free := fun hnone => (by cases hnone), sending := fun s' hs' => ?_ }
    cases hs'
    refine ⟨hs.event, hs.index, hs.shutdown, hs.run,
      fun _ => hs.pending (by rw [hphase]; exact SendPhase.noConfusion),
      fun endpoint hreq e he hdown => ?_⟩
    -- the context is not cancelled, so nothing was shut down
    by_contra hbeat
    have hctx := hrun (hs.run (Bool.eq_false_iff.2 hbeat))
    rw [h.shutdown e he hdown] at hctx
    cases hctx
  | transmit hmu hphase => exact h.transmit hmu hphase
  | unlockRun hmu => exact h.unlock h.calls
  | @unlockShutdown s i hmu hsender =>
    refine h.unlock fun call hcall hne => ?_
    have hs := h.sending s hmu
    refine hs.shutdown ?_
    by_contra hbeat
    rw [hs.run (Bool.eq_false_iff.2 hbeat)] at hsender
    cases hsender

theorem mem_events {e : NodeEvent} : e ∈ c.events ↔ e ∈ c.sent.map (·.2) := List.mem_toFinset

theorem Inv.precedes (h : Inv id info c) {e e' : NodeEvent} (he : e ∈ c.events)
    (he' : e' ∈ c.events) : e = e' ∨ Precedes e e' ∨ Precedes e' e := by
  rw [mem_events] at he he'
  by_cases heq : e = e'
  · exact .inl heq
  · have hsymm : (c.sent.map (·.2)).Pairwise fun e e' => Precedes e e' ∨ Precedes e' e :=
      h.order.imp fun hp => .inl hp
    have : Std.Symm fun e e' => Precedes e e' ∨ Precedes e' e := ⟨fun _ _ => Or.symm⟩
    exact .inr (hsymm.forall he he' heq)

theorem Inv.of_mem (h : Inv id info c) {e : NodeEvent} (he : e ∈ c.events) : e.Of id info := by
  have hof := h.event e (mem_events.1 he)
  rw [h.id, h.routingInfo] at hof
  exact hof

end AgentClient

/-! ## What arrives at a router -/

/-- The info that `New` makes of a configuration. It may be without tags. -/
structure RoutingInfo.Parsed (w : Wire) (r : RoutingInfo) : Prop where
  url : w.Absolute r.url
  healthcheckURL : w.Absolute r.healthcheckURL
  tagLength : ∀ tag ∈ r.tags, tag.length ≤ maxTagLength

theorem AgentClient.absolute_of_parseAbsoluteURL {w : Wire} {s u : Bytes}
    (h : parseAbsoluteURL w s = .ok u) : w.Absolute u := by
  obtain ⟨url, hparse, h⟩ := Except.bind_eq_ok_iff.1 h
  split at h
  · cases h
  · next hscheme =>
    cases h
    intro parseErr absoluteErr
    rw [Wire.parseAbsolute, w.urlParse_string s url hparse hscheme]
    simp [Except.mapError, bind, Except.bind, hscheme, pure, Except.pure]

theorem AgentClient.inv_new {w : Wire} {id : UUID} {cfg : AgentConfig}
    {evidence : Attest.SignedEvidenceList} {c : AgentClient} (h : new w id cfg evidence = .ok c)
    (finder : Bool) :
    Inv id c.routingInfo { c with hasRouterFinder := finder } ∧ c.routingInfo.Parsed w := by
  unfold new at h
  split at h
  · cases h
  obtain ⟨tags, htags, h⟩ := Except.bind_eq_ok_iff.1 h
  obtain ⟨url, hurl, h⟩ := Except.bind_eq_ok_iff.1 h
  obtain ⟨healthcheckURL, hhealth, h⟩ := Except.bind_eq_ok_iff.1 h
  obtain ⟨base, -, h⟩ := Except.bind_eq_ok_iff.1 h
  cases h
  rw [Except.mapError_eq_ok_iff] at htags hurl hhealth
  obtain ⟨hlen, rfl⟩ := tagsFromSlice_eq_ok_iff.1 htags
  refine ⟨⟨rfl, rfl, le_rfl, ?_, ?_, ?_, ?_, .nil, ?_, ?_⟩, absolute_of_parseAbsoluteURL hurl,
    absolute_of_parseAbsoluteURL hhealth, hlen⟩
  · intro call hcall
    cases hcall
  · intro e he
    cases he
  · intro e he
    cases he
  · intro _ e he
    cases he
  · intro e he
    cases he
  · intro s hs
    cases hs

theorem RoutingInfo.Parsed.eq_of_unmarshalProto {w : Wire} {r r' : RoutingInfo} (h : r.Parsed w)
    {order : TagOrder} (hread : RoutingInfo.unmarshalProto w (r.marshalProto order) = .ok r') :
    r' = r ∧ r.tags.Nonempty := by
  have htags : r.tags.Nonempty := by
    by_contra hempty
    rw [Finset.not_nonempty_iff_eq_empty] at hempty
    have hslice : order.slice ∅ = [] := by
      have := order.toFinset ∅
      simpa [List.toFinset_eq_empty_iff] using this
    simp [RoutingInfo.unmarshalProto, RoutingInfo.marshalProto, h.url _ _, h.healthcheckURL _ _,
      hempty, hslice, tagsFromSlice, bind, Except.bind, Except.mapError] at hread
  have hwf : r.Wf w := ⟨h.url, h.healthcheckURL, htags, h.tagLength⟩
  rw [hwf.unmarshalProto_marshalProto order] at hread
  exact ⟨(Except.ok.inj hread).symm, htags⟩

/-- An event that a router accepts is the one that the agent has sent. -/
theorem NodeEvent.Of.eq_of_unmarshalProto {w : Wire} {id : UUID} {info : RoutingInfo}
    {e e' : NodeEvent} (h : e.Of id info) (hinfo : info.Parsed w) {order : TagOrder}
    (hread : NodeEvent.unmarshalProto w (e.marshalProto w order) = .ok e') :
    e' = e ∧ w.version id = 7 ∧ (e.isShutdownEvent = true ∨ info.tags.Nonempty) := by
  obtain ⟨index, nodeID, timestamp, heartbeat⟩ := e
  obtain ⟨rfl, -, -, hheartbeat⟩ := h
  unfold NodeEvent.unmarshalProto at hread
  split at hread
  · cases hread
  split at hread
  · cases hread
  obtain ⟨parsed, hparse, hread⟩ := Except.bind_eq_ok_iff.1 hread
  obtain ⟨data, hdata, hread⟩ := Except.bind_eq_ok_iff.1 hread
  cases hread
  rw [Except.mapError_eq_ok_iff] at hparse
  have hversion := Wire.version_of_parseV7 hparse
  have hid : parsed = nodeID := by
    obtain ⟨uid, huid, hret⟩ := Except.bind_eq_ok_iff.1 hparse
    simp only [NodeEvent.marshalProto, w.uuidParse_uuidString] at huid
    cases huid
    split at hret <;> cases hret
    rfl
  subst hid
  cases heartbeat with
  | none =>
    cases hdata
    exact ⟨rfl, hversion, .inl rfl⟩
  | some hb =>
    obtain rfl := hheartbeat hb rfl
    obtain ⟨beat, hbeat, hdata⟩ := Except.bind_eq_ok_iff.1 hdata
    cases hdata
    rw [Except.mapError_eq_ok_iff] at hbeat
    obtain ⟨r', hr', hret⟩ := Except.bind_eq_ok_iff.1 hbeat
    cases hret
    obtain ⟨rfl, htags⟩ := hinfo.eq_of_unmarshalProto hr'
    exact ⟨rfl, hversion, .inr htags⟩

/-! ## Agents and routers -/

namespace Replica.Sound

variable {events : Finset NodeEvent} {r : Replica} {e : NodeEvent}

theorem eventsOf_evict (r : Replica) (id id' : UUID) :
    (r.evict id).eventsOf id' = if id' = id then ∅ else r.eventsOf id' := by
  split
  · next hid =>
    subst hid
    rw [eventsOf, evict, Finset.filter_filter, Finset.filter_eq_empty_iff]
    exact fun e _ h => h.1 h.2
  · next hid =>
    rw [eventsOf, evict, Finset.filter_filter, eventsOf]
    refine Finset.filter_congr fun e _ => ⟨fun h => h.2, fun h => ⟨?_, h⟩⟩
    rw [h]
    exact hid

theorem evict (h : r.Sound events) (id : UUID) : (r.evict id).Sound events := by
  refine ⟨(Finset.filter_subset ..).trans h.subset, fun id' => ?_⟩
  rw [eventsOf_evict]
  change Knows _ ((r.state.agents.erase id).lookup id')
  split
  · next hid =>
    subst hid
    rw [AList.lookup_erase]
    exact knows_none.2 rfl
  · next hid =>
    rw [AList.lookup_erase_ne hid]
    exact h.knows id'

theorem shutdown_of_mem (hE : Consistent events) (h : r.Sound events) (he : e ∈ r.seen)
    (hdown : e.isShutdownEvent = true) :
    ∃ a, r.state.agents.lookup e.nodeID = some a ∧ a.shutdownAt.isSome = true := by
  have hmem : e ∈ r.eventsOf e.nodeID := Finset.mem_filter.2 ⟨he, rfl⟩
  have hnode := ofNode_eventsOf h.subset e.nodeID
  have hknows := h.knows e.nodeID
  cases hlookup : r.state.agents.lookup e.nodeID with
  | none =>
    rw [hlookup, knows_none] at hknows
    rw [hknows] at hmem
    cases hmem
  | some a =>
    rw [hlookup] at hknows
    obtain ⟨l, hreflects⟩ := hknows
    refine ⟨a, rfl, ?_⟩
    have hlast : l.isShutdownEvent = true := by
      rcases (hreflects.last e hmem).lt_or_eq with hlt | heq
      · exact shutdown_of_lt hE hnode hmem hreflects.mem hlt hdown
      · rwa [← hE.index e (hnode.subset hmem) l (hnode.subset hreflects.mem)
          (hnode.nodeID l hreflects.mem).symm heq]
    rw [hreflects.shutdownAt, if_pos hlast]
    rfl

end Replica.Sound

/-- The states of the routers and those in messages. -/
structure Cluster.Sound {ι : Type} (events : Finset NodeEvent) (c : Cluster ι) : Prop where
  routers : ∀ i, (c.routers i).Sound events
  sent : ∀ r ∈ c.sent, r.Sound events

theorem Cluster.Sound.set {ι : Type} [DecidableEq ι] {events : Finset NodeEvent} {c : Cluster ι}
    (h : c.Sound events) (i : ι) {r : Replica} (hr : r.Sound events) :
    (c.set i r).Sound events where
  routers j := by
    by_cases hj : j = i
    · subst hj
      simpa [Cluster.set] using hr
    · simpa [Cluster.set, hj] using h.routers j
  sent := h.sent

theorem Consistent.mono {events events' : Finset NodeEvent} (h : Consistent events')
    (hsub : events ⊆ events') : Consistent events where
  index e he e' he' := h.index e (hsub he) e' (hsub he')
  timestamp e he := h.timestamp e (hsub he)
  routingInfo e he e' he' := h.routingInfo e (hsub he) e' (hsub he')
  shutdown e he e' he' := h.shutdown e (hsub he) e' (hsub he')

namespace Fleet

variable {ν ι : Type} {w : Wire} {f f' : Fleet ν ι} {ids : ν → UUID} {infos : ν → RoutingInfo}

section Agents

variable [Fintype ν]

theorem mem_events {e : NodeEvent} : e ∈ f.events ↔ ∃ n, e ∈ (f.clients n).events := by
  simp [events]

theorem readable_subset (w : Wire) : f.readable w ⊆ f.events := Finset.filter_subset ..

/-- The agents send what they should, and the routers have nothing else. -/
structure Inv (w : Wire) (ids : ν → UUID) (infos : ν → RoutingInfo) (f : Fleet ν ι) : Prop where
  clients : ∀ n, (f.clients n).Inv (ids n) (infos n)
  parsed : ∀ n, (infos n).Parsed w
  injective : Function.Injective ids
  sound : f.cluster.Sound (f.readable w)

theorem Inv.consistent (h : Inv w ids infos f) : Consistent f.events := by
  -- two events of one node were sent by one agent
  have hsame : ∀ e ∈ f.events, ∀ e' ∈ f.events, e.nodeID = e'.nodeID →
      ∃ n, e ∈ (f.clients n).events ∧ e' ∈ (f.clients n).events := by
    intro e he e' he' hnode
    obtain ⟨n, hn⟩ := mem_events.1 he
    obtain ⟨n', hn'⟩ := mem_events.1 he'
    have hid := ((h.clients n).of_mem hn).nodeID
    have hid' := ((h.clients n').of_mem hn').nodeID
    have hnn : n = n' := h.injective (by rw [← hid, ← hid', hnode])
    subst hnn
    exact ⟨n, hn, hn'⟩
  refine ⟨fun e he e' he' hnode hindex => ?_, fun e he => ?_, fun e he e' he' hnode hi hi' => ?_,
    fun e he e' he' hnode hdown hbeat hlt => ?_⟩
  · obtain ⟨n, hn, hn'⟩ := hsame e he e' he' hnode
    rcases (h.clients n).precedes hn hn' with heq | hlt | hlt
    · exact heq
    · exact absurd hindex hlt.1.ne
    · exact absurd hindex.symm hlt.1.ne
  · obtain ⟨n, hn⟩ := mem_events.1 he
    exact ((h.clients n).of_mem hn).timestamp
  · obtain ⟨n, hn, hn'⟩ := hsame e he e' he' hnode
    have hinfo : ∀ e ∈ (f.clients n).events, e.routingInfo.isSome = true →
        e.routingInfo = some (infos n) := by
      intro e he hsome
      cases hhb : e.heartbeat with
      | none => simp [NodeEvent.routingInfo, hhb] at hsome
      | some hb =>
        rw [NodeEvent.routingInfo, hhb, ((h.clients n).of_mem he).heartbeat hb hhb]
        rfl
    rw [hinfo e hn hi, hinfo e' hn' hi']
  · obtain ⟨n, hn, hn'⟩ := hsame e he e' he' hnode
    rcases (h.clients n).precedes hn hn' with rfl | hp | hp
    · exact hbeat hdown
    · exact hbeat (hp.2 hdown)
    · exact lt_asymm hlt hp.1

theorem Start.inv (h : Start w f) :
    Inv w (fun n => (f.clients n).id) (fun n => (f.clients n).routingInfo) f := by
  refine ⟨fun n => ?_, fun n => ?_, h.ids, ?_⟩
  · obtain ⟨id, cfg, evidence, c, hnew, finder, hc⟩ := h.clients n
    have hinv := (AgentClient.inv_new hnew finder).1
    rw [hc]
    rw [← hinv.id] at hinv
    exact hinv
  · obtain ⟨id, cfg, evidence, c, hnew, finder, hc⟩ := h.clients n
    rw [hc]
    exact (AgentClient.inv_new hnew finder).2
  · rw [h.cluster]
    exact ⟨fun _ => .init, fun r hr => by cases hr⟩

theorem Inv.mem_readable (h : Inv w ids infos f) {n : ν} {order : TagOrder} {e e' : NodeEvent}
    (hsent : e ∈ (f.clients n).events)
    (hread : NodeEvent.unmarshalProto w (e.marshalProto w order) = .ok e') : e' ∈ f.readable w := by
  have hof := (h.clients n).of_mem hsent
  obtain ⟨rfl, hversion, htags⟩ := hof.eq_of_unmarshalProto (h.parsed n) hread
  refine Finset.mem_filter.2 ⟨mem_events.2 ⟨n, hsent⟩, hof.nodeID ▸ hversion, fun r hr => ?_⟩
  rw [Option.mem_def, NodeEvent.routingInfo, Option.bind_eq_some_iff] at hr
  obtain ⟨hb, hhb, hr⟩ := hr
  rcases htags with hdown | htags
  · rw [NodeEvent.isShutdownEvent, hhb] at hdown
    cases hdown
  · rw [hof.heartbeat hb hhb] at hr
    cases hr
    exact htags

end Agents

section Runs

variable [DecidableEq ν] [DecidableEq ι]

variable [Fintype ν]

omit [DecidableEq ι] in
theorem events_subset_of_moves {c : AgentClient} {n : ν} (hmoves : AgentMoves (f.clients n) c) :
    f.events ⊆ { f with clients := Function.update f.clients n c }.events := by
  have hsub : (f.clients n).events ⊆ c.events := by
    intro e he
    rw [AgentClient.mem_events] at he ⊢
    cases hmoves
    case transmit => simp_all
    all_goals exact he
  intro e he
  obtain ⟨m, hm⟩ := mem_events.1 he
  refine mem_events.2 ⟨m, ?_⟩
  by_cases hmn : m = n
  · subst hmn
    simpa using hsub hm
  · simpa [hmn] using hm

theorem Inv.step (h : Inv w ids infos f) (hstep : Step w f f') : Inv w ids infos f' := by
  have hE := h.consistent.mono (readable_subset w)
  have hset : ∀ (i : ι) {r : Replica}, r.Sound (f.readable w) →
      Inv w ids infos { f with cluster := f.cluster.set i r } :=
    fun i _ hr => ⟨h.clients, h.parsed, h.injective, h.sound.set i hr⟩
  cases hstep with
  | client n hc =>
    have hmoves := AgentClient.moves_of_step hc
    have hsub := Finset.filter_subset_filter
      (fun e : NodeEvent => w.version e.nodeID = 7 ∧ ∀ r ∈ e.routingInfo, r.tags.Nonempty)
      (events_subset_of_moves hmoves)
    refine ⟨fun m => ?_, h.parsed, h.injective, fun i => (h.sound.routers i).mono hsub,
      fun r hr => (h.sound.sent r hr).mono hsub⟩
    by_cases hmn : m = n
    · subst hmn
      simpa using (h.clients m).step hmoves
    · simpa [hmn] using h.clients m
  | deliver i n order hsent hread =>
    exact hset i ((h.sound.routers i).event hE (h.mem_readable hsent hread))
  | healthcheck i hc => exact hset i ((h.sound.routers i).healthcheck hc)
  | evict i id => exact hset i ((h.sound.routers i).evict id)
  | send i =>
    exact ⟨h.clients, h.parsed, h.injective, h.sound.routers,
      List.forall_mem_cons.2 ⟨h.sound.routers i, h.sound.sent⟩⟩
  | receive i hsent => exact hset i ((h.sound.routers i).state hE (h.sound.sent _ hsent))

omit [Fintype ν] in
theorem runs_client (n : ν) {acts : List AgentAct}
    (h : Trace.Along AgentClient.next AgentClient.Enabled (f.clients n) acts) :
    Runs w f { f with
      clients := Function.update f.clients n (acts.foldl AgentClient.next (f.clients n)) } := by
  induction acts generalizing f with
  | nil =>
    rw [List.foldl_nil, Function.update_eq_self]
    exact .refl
  | cons a acts ih =>
    obtain ⟨c, hc⟩ := Option.isSome_iff_exists.1 h.1
    have hnext : (f.clients n).next a = c := by rw [AgentClient.next, hc]; rfl
    have hrest := ih (f := { f with clients := Function.update f.clients n c })
      (by simpa [hnext] using h.2)
    simp only [Function.update_self, Function.update_idem] at hrest
    rw [List.foldl_cons, hnext]
    exact .head (.client n hc) hrest

theorem Inv.runs (h : Inv w ids infos f) (hruns : Runs w f f') : Inv w ids infos f' := by
  induction hruns with
  | refl => exact h
  | tail _ hstep ih => exact ih.step hstep

end Runs

end Fleet

/-- In every run of agents and routers, the agents send consistent events: indices are not used
twice and no heartbeat follows a shutdown. The state of a router has nothing behind it but what the
agents sent and can be read; routers with the same events of a node behind their states agree about
its agent; and with a shutdown of a node behind it, which lasts until the node is evicted, the agent
is shut down and its node is not checked. -/
theorem fleet_agrees {ν ι : Type} [Fintype ν] [DecidableEq ν] [DecidableEq ι] {w : Wire}
    {f f' : Fleet ν ι} (hstart : f.Start w) (hruns : Fleet.Runs w f f') :
    Consistent f'.events ∧
      (∀ i, (f'.cluster.routers i).seen ⊆ f'.readable w) ∧
      (∀ i j id, (f'.cluster.routers i).eventsOf id = (f'.cluster.routers j).eventsOf id →
        (f'.cluster.routers i).state.agents.lookup id =
          (f'.cluster.routers j).state.agents.lookup id) ∧
      ∀ i, ∀ e ∈ (f'.cluster.routers i).seen, e.isShutdownEvent = true →
        (∃ a, (f'.cluster.routers i).state.agents.lookup e.nodeID = some a ∧
          a.shutdownAt.isSome = true) ∧
        (f'.cluster.routers i).state.healthcheckTarget e.nodeID = none := by
  have hinv := hstart.inv.runs hruns
  have hE := hinv.consistent.mono (Fleet.readable_subset w)
  refine ⟨hinv.consistent, fun i => (hinv.sound.routers i).subset, fun i j id hseen => ?_,
    fun i e he hdown => ?_⟩
  · exact (hinv.sound.routers i).lookup_eq hE (hinv.sound.routers j) hseen
  · obtain ⟨a, ha, hshutdown⟩ := (hinv.sound.routers i).shutdown_of_mem hE he hdown
    refine ⟨⟨a, ha, hshutdown⟩, ?_⟩
    simp [RouterState.healthcheckTarget, ha, Agent.canHealthcheck,
      Option.isSome_iff_ne_none.1 hshutdown]

/-! ## A heartbeat that arrives after the shutdown -/

def nodeConfig : AgentConfig := ⟨[[1]], [97, 58], [97, 58], [97, 58]⟩

def nodeClient : AgentClient :=
  { id := agentID
    routingInfo := ⟨[97, 58], [97, 58], {[1]}, [⟨.tpmtPublic, [], []⟩]⟩
    routerBaseURL := some [97, 58] }

/-- The agent sends a heartbeat and is shut down. -/
def bootAndShutdown : List AgentAct :=
  [.run, .lock .run 10, .request (.ok []) 0, .transmit, .unlock, .shutdown, .cancel 0,
    .lock (.shutdown 0) 20, .request (.ok []) 0, .transmit, .unlock]

def shutClient : AgentClient := bootAndShutdown.foldl AgentClient.next nodeClient

theorem shutClient_events :
    nodeClient.heartbeat 10 ∈ shutClient.events ∧
      (⟨1, agentID, 20, none⟩ : NodeEvent) ∈ shutClient.events := by
  decide

def newFleet : Fleet Unit Bool := { clients := fun _ => nodeClient }

/-- The agent has shut down, and a router hears of that first. -/
def shutFleet : Fleet Unit Bool :=
  { clients := fun _ => shutClient
    cluster := Cluster.set {} true (({} : Replica).mergeNodeEvent ⟨1, agentID, 20, none⟩) }

/-- Then it receives the heartbeat. -/
def lateFleet : Fleet Unit Bool :=
  { shutFleet with
    cluster := shutFleet.cluster.set true
      ((shutFleet.cluster.routers true).mergeNodeEvent (nodeClient.heartbeat 10)) }

theorem agentID_readable : plainWire.parseV7 (plainWire.uuidString agentID) = .ok agentID :=
  Wire.parseV7_uuidString (by decide)

theorem heartbeat_readable :
    NodeEvent.unmarshalProto plainWire
        ((nodeClient.heartbeat 10).marshalProto plainWire sortedTags) =
      .ok (nodeClient.heartbeat 10) := by
  have habsolute : plainWire.Absolute [97, 58] := fun _ _ => rfl
  have hinfo : nodeClient.routingInfo.Wf plainWire := ⟨habsolute, habsolute, by decide, by decide⟩
  simp only [NodeEvent.unmarshalProto, NodeEvent.unmarshalData, NodeEvent.marshalProto,
    Heartbeat.unmarshalProto, Heartbeat.marshalProto, AgentClient.heartbeat, Option.map_some,
    Option.getD_some, hinfo.unmarshalProto_marshalProto,
    show nodeClient.id = agentID from rfl, agentID_readable]
  rfl

theorem shutdown_readable :
    NodeEvent.unmarshalProto plainWire
      ((⟨1, agentID, 20, none⟩ : NodeEvent).marshalProto plainWire sortedTags) =
      .ok ⟨1, agentID, 20, none⟩ := by
  simp only [NodeEvent.unmarshalProto, NodeEvent.unmarshalData, NodeEvent.marshalProto,
    agentID_readable]
  rfl

theorem fleet_agrees_late :
    (lateFleet.cluster.routers true).state.agents.lookup agentID =
        some ⟨1, 20, some nodeClient.routingInfo, some 20⟩ ∧
      (lateFleet.cluster.routers true).state.healthcheckTarget agentID = none := by
  have hstart : newFleet.Start plainWire :=
    ⟨fun _ => ⟨agentID, nodeConfig, [⟨.tpmtPublic, [], []⟩], nodeClient, rfl, false, rfl⟩,
      fun _ _ _ => rfl, rfl⟩
  have hboot : Fleet.Runs plainWire newFleet { newFleet with clients := fun _ => shutClient } := by
    have hone : Function.update newFleet.clients () shutClient = fun _ => shutClient := by
      funext n
      exact Function.update_self ..
    rw [← hone]
    exact Fleet.runs_client () (by decide)
  have hshut : Fleet.Runs plainWire newFleet shutFleet :=
    hboot.tail (.deliver true () sortedTags shutClient_events.2 shutdown_readable)
  have hlate : Fleet.Runs plainWire newFleet lateFleet :=
    hshut.tail (.deliver true () sortedTags shutClient_events.1 heartbeat_readable)
  have hseen : (⟨1, agentID, 20, none⟩ : NodeEvent) ∈ (lateFleet.cluster.routers true).seen := by
    decide
  exact ⟨by decide +kernel, ((fleet_agrees hstart hlate).2.2.2 true _ hseen rfl).2⟩

/-- If the node is evicted in between, the late heartbeat makes its agent known again as running. -/
example :
    (((shutFleet.cluster.routers true).evict agentID).mergeNodeEvent
      (nodeClient.heartbeat 10)).state.healthcheckTarget agentID = some [97, 58] := by
  decide +kernel

end Router
