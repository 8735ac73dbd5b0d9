import Mathlib.Data.Finset.Sort
import Mathlib.Tactic.Ring
import OpenPCC.Go.Hex
import OpenPCC.Router.Proof.Convergence
import OpenPCC.Router.Proof.History
import OpenPCC.Router.Wire

/-!
# Gossiped states are readable

For each message type, `Wf` is what its decoder asks for: a decoded value is well-formed, and a
well-formed value reads back from its own message. Every merge keeps a state well-formed, so every
reachable state reads back (`gossip_readable`).
-/

namespace Router

open Go Codec Table

variable {w : Wire}

/-! ## Ids and URLs -/

theorem Wire.version_of_parseV7 {s : Bytes} {id : UUID} (h : w.parseV7 s = .ok id) :
    w.version id = 7 := by
  obtain ⟨uid, -, hversion⟩ := Except.bind_eq_ok_iff.1 h
  split at hversion
  · cases hversion
  · next hv =>
    cases hversion
    exact not_not.1 hv

theorem Wire.parseV7_uuidString {id : UUID} (h : w.version id = 7) :
    w.parseV7 (w.uuidString id) = .ok id := by
  rw [Wire.parseV7, w.uuidParse_uuidString]
  simp [bind, Except.bind, h, pure, Except.pure]

/-- The text of an absolute URL, as `String()` gives it. -/
def Wire.Absolute (w : Wire) (u : Bytes) : Prop :=
  ∀ parseErr absoluteErr, w.parseAbsolute parseErr absoluteErr u = .ok u

theorem Wire.absolute_of_parseAbsolute {e e' : String} {s u : Bytes}
    (h : w.parseAbsolute e e' s = .ok u) : w.Absolute u := by
  obtain ⟨url, hparse, hscheme⟩ := Except.bind_eq_ok_iff.1 h
  rw [Except.mapError_eq_ok_iff] at hparse
  split at hscheme
  · cases hscheme
  · next hs =>
    cases hscheme
    intro parseErr absoluteErr
    rw [Wire.parseAbsolute, w.urlParse_string s url hparse hs]
    simp [Except.mapError, bind, Except.bind, hs, pure, Except.pure]

/-! ## Evidence and tags -/

theorem unmarshalEvidenceType_marshal (t : Attest.EvidenceType) :
    unmarshalEvidenceType (marshalEvidenceType t) = .ok t := by
  cases t <;> rfl

theorem unmarshalEvidenceFrom_marshal (i : Nat) (s : Attest.SignedEvidenceList) :
    unmarshalEvidenceFrom i (marshalEvidence s) = .ok s := by
  induction s generalizing i with
  | nil => rfl
  | cons se s ih =>
    have hpiece : unmarshalEvidencePiece (marshalEvidencePiece se) = .ok se := by
      rw [unmarshalEvidencePiece, marshalEvidencePiece, unmarshalEvidenceType_marshal]
      rfl
    rw [marshalEvidence, List.map_cons, unmarshalEvidenceFrom, hpiece]
    simp only [Except.mapError, bind, Except.bind]
    rw [← marshalEvidence, ih]
    rfl

theorem tagsFromSlice_eq_ok_iff {l : List Bytes} {tags : Finset Bytes} :
    tagsFromSlice l = .ok tags ↔
      (∀ tag ∈ tags, tag.length ≤ maxTagLength) ∧ l.toFinset = tags := by
  rw [and_congr_left (b := ∀ tag ∈ l, tag.length ≤ maxTagLength) (by rintro rfl; simp)]
  induction l generalizing tags with
  | nil => simp [tagsFromSlice]
  | cons tag l ih =>
    rw [tagsFromSlice]
    split
    · next hlong => simp [hlong]
    · next hshort =>
      rw [Except.bind_eq_ok_iff]
      simp only [ih, pure, Except.pure, Except.ok.injEq, List.forall_mem_cons, not_lt.1 hshort,
        true_and, List.toFinset_cons]
      constructor
      · rintro ⟨out, ⟨hlen, rfl⟩, rfl⟩
        exact ⟨hlen, rfl⟩
      · rintro ⟨hlen, rfl⟩
        exact ⟨_, ⟨hlen, rfl⟩, rfl⟩

/-! ## Routing info, events and agents -/

structure RoutingInfo.Wf (w : Wire) (r : RoutingInfo) : Prop where
  url : w.Absolute r.url
  healthcheckURL : w.Absolute r.healthcheckURL
  tags : r.tags.Nonempty
  tagLength : ∀ tag ∈ r.tags, tag.length ≤ maxTagLength

theorem RoutingInfo.wf_of_unmarshalProto {pbr : Pb.RoutingInfo} {r : RoutingInfo}
    (h : RoutingInfo.unmarshalProto w pbr = .ok r) : r.Wf w := by
  obtain ⟨nodeURL, hurl, h⟩ := Except.bind_eq_ok_iff.1 h
  obtain ⟨healthURL, hhealth, h⟩ := Except.bind_eq_ok_iff.1 h
  obtain ⟨tags, htags, h⟩ := Except.bind_eq_ok_iff.1 h
  rw [Except.mapError_eq_ok_iff, tagsFromSlice_eq_ok_iff] at htags
  obtain ⟨hlen, rfl⟩ := htags
  split at h
  · cases h
  · next hcard =>
    obtain ⟨evidence, -, h⟩ := Except.bind_eq_ok_iff.1 h
    cases h
    exact ⟨Wire.absolute_of_parseAbsolute hurl, Wire.absolute_of_parseAbsolute hhealth,
      Finset.card_pos.1 (Nat.pos_of_ne_zero hcard), hlen⟩

theorem RoutingInfo.Wf.unmarshalProto_marshalProto {r : RoutingInfo} (h : r.Wf w)
    (order : TagOrder) : RoutingInfo.unmarshalProto w (r.marshalProto order) = .ok r := by
  have htags := tagsFromSlice_eq_ok_iff.2 ⟨h.tagLength, order.toFinset r.tags⟩
  have hcard : r.tags.card ≠ 0 := Finset.card_ne_zero.2 h.tags
  simp [RoutingInfo.unmarshalProto, RoutingInfo.marshalProto, h.url _ _, h.healthcheckURL _ _,
    htags, unmarshalEvidence, unmarshalEvidenceFrom_marshal, hcard, bind, Except.bind, pure,
    Except.pure, Except.mapError]

/-- The infos of an event or an agent, of which there is at most one. -/
def InfoWf (w : Wire) (info : Option RoutingInfo) : Prop := ∀ r, info = some r → r.Wf w

theorem InfoWf.orElse {i j : Option RoutingInfo} (hi : InfoWf w i) (hj : InfoWf w j) :
    InfoWf w (i <|> j) := by
  cases i with
  | none => exact hj
  | some r => exact hi

structure NodeEvent.Wf (w : Wire) (e : NodeEvent) : Prop where
  version : w.version e.nodeID = 7
  eventIndex : 0 ≤ e.eventIndex
  routingInfo : InfoWf w e.routingInfo

theorem Heartbeat.wf_of_unmarshalProto {pbh : Pb.Heartbeat} {h : Heartbeat}
    (hok : Heartbeat.unmarshalProto w pbh = .ok h) : InfoWf w h.routingInfo := by
  rw [Heartbeat.unmarshalProto] at hok
  intro r hr
  split at hok
  · cases hok
  · obtain ⟨url, -, hok⟩ := Except.bind_eq_ok_iff.1 hok
    cases hok
    cases hr
  · obtain ⟨info, hinfo, hok⟩ := Except.bind_eq_ok_iff.1 hok
    cases hok
    cases hr
    exact RoutingInfo.wf_of_unmarshalProto hinfo

theorem NodeEvent.wf_of_unmarshalProto {pbe : Pb.NodeEvent} {e : NodeEvent}
    (h : NodeEvent.unmarshalProto w pbe = .ok e) : e.Wf w := by
  rw [NodeEvent.unmarshalProto] at h
  split at h
  · cases h
  next hindex =>
  split at h
  · cases h
  obtain ⟨id, hid, h⟩ := Except.bind_eq_ok_iff.1 h
  obtain ⟨heartbeat, hdata, h⟩ := Except.bind_eq_ok_iff.1 h
  cases h
  rw [Except.mapError_eq_ok_iff] at hid
  refine ⟨Wire.version_of_parseV7 hid, not_lt.1 hindex, fun r hr => ?_⟩
  rw [NodeEvent.unmarshalData] at hdata
  split at hdata
  · obtain ⟨hb, hhb, hdata⟩ := Except.bind_eq_ok_iff.1 hdata
    cases hdata
    exact Heartbeat.wf_of_unmarshalProto (Except.mapError_eq_ok_iff.1 hhb) r hr
  · split at hdata
    · cases hdata
      cases hr
    · cases hdata

structure Agent.Wf (w : Wire) (a : Agent) : Prop where
  lastEventIndex : 0 ≤ a.lastEventIndex
  routingInfo : InfoWf w a.routingInfo

theorem Agent.wf_of_unmarshalProto {pba : Pb.AgentState} {a : Agent}
    (h : Agent.unmarshalProto w pba = .ok a) : a.Wf w := by
  rw [Agent.unmarshalProto] at h
  split at h
  · split at h
    · cases h
    · next hindex =>
      obtain ⟨info, hinfo, h⟩ := Except.bind_eq_ok_iff.1 h
      cases h
      refine ⟨not_lt.1 hindex, fun r hr => ?_⟩
      rw [Agent.unmarshalInfo] at hinfo
      split at hinfo
      · cases hinfo
        cases hr
      · obtain ⟨info, hok, hinfo⟩ := Except.bind_eq_ok_iff.1 hinfo
        cases hinfo
        cases hr
        exact RoutingInfo.wf_of_unmarshalProto (Except.mapError_eq_ok_iff.1 hok)
  · cases h

theorem Agent.Wf.unmarshalProto_marshalProto {a : Agent} (h : a.Wf w) (order : TagOrder) :
    Agent.unmarshalProto w (a.marshalProto order) = .ok a := by
  have hinfo : Agent.unmarshalInfo w (a.marshalProto order) = .ok a.routingInfo := by
    rw [Agent.unmarshalInfo, Agent.marshalProto]
    cases hr : a.routingInfo with
    | none => rfl
    | some r =>
      simp only [Option.map_some, (h.routingInfo r hr).unmarshalProto_marshalProto order]
      rfl
  rw [Agent.unmarshalProto, hinfo]
  simp only [Agent.marshalProto, not_lt.2 h.lastEventIndex, if_false]
  rfl

theorem Agent.Wf.mergeNodeEvent {a : Agent} {e : NodeEvent} (ha : a.Wf w) (he : e.Wf w) :
    (a.mergeNodeEvent e).1.Wf w where
  lastEventIndex := by
    rw [Agent.mergeNodeEvent]
    split
    · exact he.eventIndex
    · split <;> exact ha.lastEventIndex
  routingInfo := by
    rw [Agent.mergeNodeEvent_routingInfo]
    exact ha.routingInfo.orElse he.routingInfo

theorem Agent.Wf.mergeState {a b : Agent} (ha : a.Wf w) (hb : b.Wf w) :
    (a.mergeState b).1.Wf w where
  lastEventIndex := by
    simp only [Agent.mergeState]
    split
    · exact hb.lastEventIndex
    · exact ha.lastEventIndex
  routingInfo := by
    rw [Agent.mergeState_routingInfo]
    exact ha.routingInfo.orElse hb.routingInfo

/-! ## Checks and histories -/

/-- The number is in the range of an `int32`. -/
def IsInt32 (v : Int) : Prop := -2 ^ 31 ≤ v ∧ v ≤ 2 ^ 31 - 1

theorem int32OrMax_toInt {v : Int} (h : IsInt32 v) : (int32OrMax v).toInt = v := by
  obtain ⟨hmin, hmax⟩ := h
  rw [int32OrMax, if_neg (by omega)]
  exact Int32.toInt_ofInt_of_le (by omega) (by omega)

theorem isInt32_toInt (v : Int32) : IsInt32 v.toInt :=
  ⟨v.le_toInt, by have := v.toInt_lt; omega⟩

structure Check.Wf (w : Wire) (c : Check) : Prop where
  version : w.version c.nodeID = 7
  url : w.Absolute c.url
  retries : IsInt32 c.retries
  httpStatusCode : IsInt32 c.httpStatusCode

theorem Check.wf_of_unmarshalProto {pbc : Pb.Check} {c : Check}
    (h : Check.unmarshalProto w pbc = .ok c) : c.Wf w := by
  obtain ⟨id, hid, h⟩ := Except.bind_eq_ok_iff.1 h
  obtain ⟨url, hurl, h⟩ := Except.bind_eq_ok_iff.1 h
  cases h
  rw [Except.mapError_eq_ok_iff] at hid
  exact ⟨Wire.version_of_parseV7 hid, Wire.absolute_of_parseAbsolute hurl, isInt32_toInt _,
    isInt32_toInt _⟩

theorem Check.Wf.unmarshalProto_marshalProto {c : Check} (h : c.Wf w) :
    Check.unmarshalProto w (c.marshalProto w) = .ok c := by
  simp only [Check.unmarshalProto, Check.marshalProto, Wire.parseV7_uuidString h.version,
    h.url _ _, int32OrMax_toInt h.retries, int32OrMax_toInt h.httpStatusCode]
  rfl

theorem Check.Wf.attempts {hc : Check} (h : hc.Wf w) (l : List Attempt) :
    (hc.attempts l).Wf w := by
  induction l generalizing hc with
  | nil => exact h
  | cons a l ih =>
    have ha : (hc.attempted a).Wf w := by
      rw [Check.attempted]
      split
      · exact ⟨h.version, h.url, h.retries, by simp [IsInt32]⟩
      · next code err _ =>
        have hcode := code.isLt
        exact ⟨h.version, h.url, h.retries, by simp [IsInt32]; omega⟩
    rw [Check.attempts]
    split
    · exact ha
    · exact ih ha

theorem checkHealth_wf {id : UUID} {url : Bytes} (hid : w.version id = 7) (hurl : w.Absolute url)
    (attempts : List Attempt) : (checkHealth id url attempts).Wf w := by
  have hzero : IsInt32 0 := by simp [IsInt32]
  have hstart : Check.Wf w ⟨id, url, 0, 0, 0, 0, []⟩ := ⟨hid, hurl, hzero, hzero⟩
  rw [checkHealth]
  exact hstart.attempts attempts

/-- `c` may come after `prev` in a history. -/
structure Check.Follows (prev c : Check) : Prop where
  nodeID : c.nodeID = prev.nodeID
  timestamp : prev.timestamp ≤ c.timestamp

theorem Check.follows_eq_ok_iff {c : Check} {prev : Option Check} {u : Unit} :
    c.follows prev = .ok u ↔ ∀ p, prev = some p → p.Follows c := by
  cases prev with
  | none => simp [Check.follows]
  | some p =>
    rw [Check.follows]
    constructor
    · intro h p' hp
      cases hp
      split at h
      · cases h
      next hid =>
      split at h
      · cases h
      next htime => exact ⟨not_not.1 hid, not_lt.1 htime⟩
    · intro h
      obtain ⟨hid, htime⟩ := h p rfl
      rw [if_neg (not_not.2 hid), if_neg (not_lt.2 htime)]

structure History.Wf (w : Wire) (h : History) : Prop where
  checks : ∀ c ∈ h, c.Wf w
  chain : h.IsChain Check.Follows

theorem History.wf_of_unmarshalFrom {i : Nat} {prev : Option Check} {checks : List Pb.Check}
    {h : History} (hok : History.unmarshalFrom w i prev checks = .ok h) :
    (∀ c ∈ h, c.Wf w) ∧ (prev.toList ++ h).IsChain Check.Follows := by
  induction checks generalizing i prev h with
  | nil =>
    cases hok
    cases prev <;> simp
  | cons check checks ih =>
    obtain ⟨c, hc, hok⟩ := Except.bind_eq_ok_iff.1 hok
    obtain ⟨u, hfollows, hok⟩ := Except.bind_eq_ok_iff.1 hok
    obtain ⟨rest, hrest, hok⟩ := Except.bind_eq_ok_iff.1 hok
    cases hok
    obtain ⟨hwf, hchain⟩ := ih hrest
    have hcwf := Check.wf_of_unmarshalProto (Except.mapError_eq_ok_iff.1 hc)
    refine ⟨List.forall_mem_cons.2 ⟨hcwf, hwf⟩, ?_⟩
    cases prev with
    | none => exact hchain
    | some p => exact List.isChain_cons_cons.2 ⟨Check.follows_eq_ok_iff.1 hfollows p rfl, hchain⟩

theorem History.wf_of_unmarshalProto {hpb : Pb.History} {h : History}
    (hok : History.unmarshalProto w hpb = .ok h) : h.Wf w := by
  obtain ⟨hwf, hchain⟩ := History.wf_of_unmarshalFrom hok
  exact ⟨hwf, hchain⟩

theorem History.unmarshalFrom_marshal {h : History} (hwf : ∀ c ∈ h, c.Wf w) (prev : Option Check)
    (hchain : (prev.toList ++ h).IsChain Check.Follows) (i : Nat) :
    History.unmarshalFrom w i prev (h.map (Check.marshalProto w)) = .ok h := by
  induction h generalizing i prev with
  | nil => rfl
  | cons c h ih =>
    obtain ⟨hc, hwf⟩ := List.forall_mem_cons.1 hwf
    have hfollows : c.follows prev = .ok () := by
      refine Check.follows_eq_ok_iff.2 fun p hp => ?_
      subst hp
      exact (List.isChain_cons_cons.1 hchain).1
    have htail : (c :: h).IsChain Check.Follows := by
      cases prev with
      | none => exact hchain
      | some p => exact (List.isChain_cons_cons.1 hchain).2
    rw [List.map_cons, History.unmarshalFrom, hc.unmarshalProto_marshalProto]
    simp only [Except.mapError, bind, Except.bind, hfollows, ih hwf (some c) htail]
    rfl

theorem History.Wf.ofNode {h : History} (hwf : h.Wf w) {x : Check} (hx : x ∈ h) :
    h.OfNode x.nodeID := by
  have hpairs : h.Pairwise Check.Follows := by
    have htrans : IsTrans Check Check.Follows :=
      ⟨fun a b c hab hbc => ⟨hbc.nodeID.trans hab.nodeID, hab.timestamp.trans hbc.timestamp⟩⟩
    exact List.isChain_iff_pairwise.1 hwf.chain
  refine ⟨hpairs.imp fun hf => hf.timestamp, fun c hc => ?_⟩
  have hsame : h.Pairwise fun a b => a.nodeID = b.nodeID := hpairs.imp fun hf => hf.nodeID.symm
  have hflip : h.Pairwise (flip fun a b => a.nodeID = b.nodeID) := hpairs.imp fun hf => hf.nodeID
  exact List.Pairwise.forall_of_forall_of_flip (R := fun a b : Check => a.nodeID = b.nodeID)
    (fun _ _ => rfl) hsame hflip hc hx

theorem History.wf_of_ofNode {h : History} {n : UUID} (hchecks : ∀ c ∈ h, c.Wf w)
    (hnode : h.OfNode n) : h.Wf w := by
  refine ⟨hchecks, List.Pairwise.isChain ?_⟩
  refine hnode.ordered.imp_of_mem fun ha hb hle => ⟨?_, hle⟩
  rw [hnode.nodeID _ ha, hnode.nodeID _ hb]

theorem History.wf_of_perm {h h' : History} (hwf : h.Wf w) (hperm : h'.Perm h)
    (hordered : h'.Ordered) : h'.Wf w := by
  cases h' with
  | nil => exact ⟨fun c hc => absurd hc List.not_mem_nil, .nil⟩
  | cons x h' =>
    have hnode := hwf.ofNode (hperm.subset List.mem_cons_self)
    exact History.wf_of_ofNode (fun c hc => hwf.checks c (hperm.subset hc))
      ⟨hordered, fun c hc => hnode.nodeID c (hperm.subset hc)⟩

theorem History.Wf.insert {h h' : History} (hwf : h.Wf w) {hc : Check} (hhc : hc.Wf w)
    (hok : h.insert hc = .ok h') : h'.Wf w := by
  rw [History.insert.eq_def] at hok
  split at hok
  · cases hok
    exact ⟨List.forall_mem_cons.2 ⟨hhc, fun c hc => absurd hc List.not_mem_nil⟩, .singleton _⟩
  · next first rest =>
    split at hok
    · cases hok
    next hid =>
    split at hok
    · cases hok
      exact hwf
    cases hok
    have hperm := List.perm_insertionSort (fun a b : Check => a.timestamp ≤ b.timestamp)
      (first :: rest ++ [hc])
    have hnode := hwf.ofNode List.mem_cons_self
    refine History.wf_of_ofNode (n := hc.nodeID) (fun c hmem => ?_)
      ⟨List.pairwise_insertionSort .., fun c hmem => ?_⟩
    all_goals obtain hmem | hmem := List.mem_append.1 (hperm.subset hmem)
    · exact hwf.checks c hmem
    · rwa [List.mem_singleton.1 hmem]
    · rw [hnode.nodeID c hmem, not_not.1 hid]
    · rw [List.mem_singleton.1 hmem]

theorem History.Wf.merge {h other h' : History} (hwf : h.Wf w) (hother : other.Wf w)
    (hok : h.merge other = .ok h') : h'.Wf w := by
  rw [History.merge.eq_def] at hok
  split at hok
  · cases hok
    exact hwf
  · cases hok
    exact hother
  · split at hok
    · cases hok
    next hid =>
    cases hok
    have hnode := hwf.ofNode List.mem_cons_self
    have hothernode := hother.ofNode List.mem_cons_self
    rw [← not_not.1 hid] at hothernode
    refine History.wf_of_ofNode (fun c hmem => ?_) (hnode.mergeLoop hothernode)
    obtain hmem | hmem := (mem_mergeLoop c).1 hmem
    · exact hwf.checks c hmem
    · exact hother.checks c hmem

def NodeHealth.Wf (w : Wire) (h : NodeHealth) : Prop := h.history.Wf w

theorem NodeHealth.wf_of_unmarshalProto {pbnh : Pb.NodeHealthState} {h : NodeHealth}
    (hok : NodeHealth.unmarshalProto w pbnh = .ok h) : h.Wf w := by
  rw [NodeHealth.unmarshalProto] at hok
  split at hok
  · cases hok
  · obtain ⟨his, hhis, hok⟩ := Except.bind_eq_ok_iff.1 hok
    cases hok
    exact History.wf_of_unmarshalProto (Except.mapError_eq_ok_iff.1 hhis)

theorem NodeHealth.Wf.unmarshalProto_marshalProto {h : NodeHealth} (hwf : h.Wf w) :
    NodeHealth.unmarshalProto w (h.marshalProto w) = .ok h := by
  have hhistory : History.unmarshalProto w (h.history.marshalProto w) = .ok h.history :=
    History.unmarshalFrom_marshal hwf.checks none hwf.chain 0
  simp only [NodeHealth.unmarshalProto, NodeHealth.marshalProto, hhistory]
  rfl

theorem NodeHealth.Wf.extend {h : NodeHealth} (hwf : h.Wf w) {new : Except Err History}
    (hnew : ∀ h', new = .ok h' → h'.Wf w) : (h.extend new).1.Wf w := by
  cases new with
  | error e => exact hwf
  | ok h' =>
    rw [NodeHealth.extend]
    split
    · exact hwf
    · exact hnew h' rfl

/-! ## States -/

structure RouterState.Wf (w : Wire) (s : RouterState) : Prop where
  agents : ∀ id a, s.agents.lookup id = some a → w.version id = 7 ∧ a.Wf w
  health : ∀ id h, s.health.lookup id = some h → w.version id = 7 ∧ h.Wf w

theorem of_unmarshalEntry {M V : Type} {errs : MapErrors} {unmarshal : M → Except Err V}
    {key : Bytes} {value : Option M} {id : UUID} {v : V}
    (h : unmarshalEntry w errs unmarshal key value = .ok (id, v)) :
    w.version id = 7 ∧ ∃ m, unmarshal m = .ok v := by
  obtain ⟨id, hid, h⟩ := Except.bind_eq_ok_iff.1 h
  cases value with
  | none => cases h
  | some m =>
    obtain ⟨v, hv, h⟩ := Except.bind_eq_ok_iff.1 h
    cases h
    exact ⟨Wire.version_of_parseV7 (Except.mapError_eq_ok_iff.1 hid), m,
      Except.mapError_eq_ok_iff.1 hv⟩

theorem unmarshalEntry_idText {M V : Type} {errs : MapErrors} {unmarshal : M → Except Err V}
    {id : UUID} (hid : w.version id = 7) {m : M} {v : V} (hm : unmarshal m = .ok v) :
    unmarshalEntry w errs unmarshal (w.idText id) (some m) = .ok (id, v) := by
  change unmarshalEntry w errs unmarshal (w.uuidString id) (some m) = .ok (id, v)
  rw [unmarshalEntry, Wire.parseV7_uuidString hid]
  simp only [Except.mapError, bind, Except.bind, hm]
  rfl

theorem RouterState.wf_of_unmarshalProto {pbr : Pb.RouterState} {s : RouterState}
    (h : RouterState.unmarshalProto w pbr = .ok s) : s.Wf w := by
  obtain ⟨agents, hagents, h⟩ := Except.bind_eq_ok_iff.1 h
  obtain ⟨health, hhealth, h⟩ := Except.bind_eq_ok_iff.1 h
  cases h
  constructor
  · refine of_decodeTable (fun key value id a hok => ?_) hagents
    obtain ⟨hversion, m, hm⟩ := of_unmarshalEntry hok
    exact ⟨hversion, Agent.wf_of_unmarshalProto hm⟩
  · refine of_decodeTable (fun key value id h hok => ?_) hhealth
    obtain ⟨hversion, m, hm⟩ := of_unmarshalEntry hok
    exact ⟨hversion, NodeHealth.wf_of_unmarshalProto hm⟩

theorem RouterState.Wf.mergeNodeEvent {s : RouterState} (hs : s.Wf w) {e : NodeEvent}
    (he : e.Wf w) : (s.mergeNodeEvent e).1.Wf w where
  agents := by
    have hnew : ({} : Agent).Wf w := ⟨le_rfl, fun r hr => by cases hr⟩
    refine forall_upsert (P := fun (id : UUID) (a : Agent) => w.version id = 7 ∧ a.Wf w) hs.agents
      ⟨he.version, hnew.mergeNodeEvent he⟩ fun a ha => ⟨he.version, ha.2.mergeNodeEvent he⟩
  health := hs.health

theorem RouterState.Wf.mergeHealthcheck {s : RouterState} (hs : s.Wf w) {hc : Check}
    (hhc : hc.Wf w) : (s.mergeHealthcheck hc).1.Wf w where
  agents := hs.agents
  health := by
    have hmerge : ∀ h : NodeHealth, h.Wf w → (h.mergeHealthcheck hc).1.Wf w := fun h hwf =>
      hwf.extend fun h' hok => History.Wf.insert hwf hhc hok
    have hnew : NodeHealth.Wf w ⟨[]⟩ := ⟨fun c hc => absurd hc List.not_mem_nil, .nil⟩
    exact forall_upsert (P := fun (id : UUID) (h : NodeHealth) => w.version id = 7 ∧ h.Wf w)
      hs.health ⟨hhc.version, hmerge _ hnew⟩ fun h hwf => ⟨hhc.version, hmerge h hwf.2⟩

theorem RouterState.Wf.mergeState {s p : RouterState} (hs : s.Wf w) (hp : p.Wf w) :
    (s.mergeState p).1.Wf w where
  agents := forall_mergeWith hs.agents hp.agents fun _ _ _ ha hb => ⟨ha.1, ha.2.mergeState hb.2⟩
  health := forall_mergeWith hs.health hp.health fun _ _ _ hh hh' =>
    ⟨hh.1, hh.2.extend fun _ hok => History.Wf.merge hh.2 hh'.2 hok⟩

theorem RouterState.Wf.reorder {s s' : RouterState} (hs : s.Wf w) (h : s.Reorders s') :
    s'.Wf w where
  agents id a ha := hs.agents id a ((h.agents id).symm.trans ha)
  health id nh' hnh' := by
    have hrel := h.health id
    rw [hnh'] at hrel
    cases hlookup : s.health.lookup id with
    | none =>
      rw [hlookup] at hrel
      cases hrel
    | some nh =>
      rw [hlookup, Option.rel_some_some] at hrel
      obtain ⟨hversion, hwf⟩ := hs.health id nh hlookup
      exact ⟨hversion, History.wf_of_perm hwf hrel.1 hrel.2⟩

theorem RouterState.Wf.healthcheckTarget {s : RouterState} (hs : s.Wf w) {id : UUID}
    {url : Bytes} (h : s.healthcheckTarget id = some url) : w.version id = 7 ∧ w.Absolute url := by
  rw [RouterState.healthcheckTarget] at h
  split at h
  · cases h
  · next a ha =>
    obtain ⟨hversion, hwf⟩ := hs.agents id a ha
    split at h
    · obtain ⟨r, hr, rfl⟩ := Option.map_eq_some_iff.1 h
      exact ⟨hversion, (hwf.routingInfo r hr).healthcheckURL⟩
    · cases h

theorem RouterState.Reachable.wf {s : RouterState} (h : RouterState.Reachable w s) : s.Wf w := by
  induction h with
  | init => exact ⟨fun id a ha => (by cases ha), fun id nh hnh => (by cases hnh)⟩
  | event hs he ih => exact ih.mergeNodeEvent (NodeEvent.wf_of_unmarshalProto he)
  | healthcheck hs hc ih => exact ih.mergeHealthcheck (Check.wf_of_unmarshalProto hc)
  | ownHealthcheck hs hearlier hurl attempts ih ihearlier =>
    obtain ⟨hversion, habsolute⟩ := ihearlier.healthcheckTarget hurl
    exact ih.mergeHealthcheck (checkHealth_wf hversion habsolute attempts)
  | peer hs hp ih => exact ih.mergeState (RouterState.wf_of_unmarshalProto hp)
  | reorder hs hreorder ih => exact ih.reorder hreorder

theorem RouterState.Wf.unmarshalProto_marshalProto {s : RouterState} (hs : s.Wf w)
    (order : UUID → TagOrder) {pbr : Pb.RouterState} (hpbr : pbr.Same (s.marshalProto w order)) :
    ∃ s', RouterState.unmarshalProto w pbr = .ok s' ∧ s'.Same s := by
  obtain ⟨agents, hagents, hsameAgents⟩ :=
    decodeTable_encodeTable (unmarshalAgents w) (fun id a ha => by
      obtain ⟨hversion, hwf⟩ := hs.agents id a ha
      exact unmarshalEntry_idText hversion (hwf.unmarshalProto_marshalProto (order id)))
      hpbr.agents
  obtain ⟨health, hhealth, hsameHealth⟩ :=
    decodeTable_encodeTable (unmarshalNodeHealth w) (fun id h hh => by
      obtain ⟨hversion, hwf⟩ := hs.health id h hh
      exact unmarshalEntry_idText hversion hwf.unmarshalProto_marshalProto) hpbr.nodeHealth
  refine ⟨⟨agents, health⟩, ?_, hsameAgents, hsameHealth⟩
  rw [RouterState.unmarshalProto, hagents, hhealth]
  rfl

/-- A state that a router reaches from what the decoders accept reads back from its own message,
in whatever order the maps are iterated. -/
theorem gossip_readable (order : UUID → TagOrder) {s : RouterState}
    (h : RouterState.Reachable w s) {pbr : Pb.RouterState}
    (hpbr : pbr.Same (s.marshalProto w order)) :
    ∃ s', RouterState.unmarshalProto w pbr = .ok s' ∧ s'.Same s :=
  h.wf.unmarshalProto_marshalProto order hpbr

/-! ## A state with one agent -/

/-- The last `k` hexadecimal digits of `n`. -/
def hexDigits : Nat → Nat → Bytes
  | 0, _ => []
  | k + 1, n => hexDigits k (n / 16) ++ [Hex.digit (n % 16)]

/-- 32 digits in groups of 8, 4, 4, 4 and 12. -/
def uuidText (id : UUID) : Bytes :=
  let n := id.toNat
  [45].intercalate [hexDigits 8 (n / 16 ^ 24), hexDigits 4 (n / 16 ^ 20), hexDigits 4 (n / 16 ^ 16),
    hexDigits 4 (n / 16 ^ 12), hexDigits 12 n]

/-- The number of the digits in a text. -/
def readDigits (n : Nat) (s : Bytes) : Nat :=
  s.foldl (fun n c => (Hex.value c).elim n (16 * n + ·)) n

theorem readDigits_append (n : Nat) (s s' : Bytes) :
    readDigits n (s ++ s') = readDigits (readDigits n s) s' :=
  List.foldl_append

theorem readDigits_hexDigits (k m n : Nat) :
    readDigits m (hexDigits k n) = 16 ^ k * m + n % 16 ^ k := by
  induction k generalizing n with
  | zero => simp [hexDigits, readDigits, Nat.mod_one]
  | succ k ih =>
    have hdigit := Hex.value_digit (Nat.mod_lt n (by decide : 0 < 16))
    rw [hexDigits, readDigits_append, ih, readDigits, List.foldl_cons, hdigit, Option.elim_some,
      List.foldl_nil, Nat.pow_succ', Nat.mod_mul]
    ring

theorem readDigits_uuidText (id : UUID) : readDigits 0 (uuidText id) = id.toNat := by
  have hlt := id.isLt
  have hdash (n : Nat) : readDigits n [45] = n := rfl
  simp only [uuidText, List.intercalate_cons_cons, List.intercalate_singleton, readDigits_append,
    readDigits_hexDigits, hdash]
  omega

/-- Ids are written as `xxxxxxxx-xxxx-xxxx-xxxx-xxxxxxxxxxxx`, URLs are taken as they are. -/
def plainWire : Wire where
  uuidString := uuidText
  uuidParse s :=
    let id : UUID := BitVec.ofNat 128 (readDigits 0 s)
    if uuidText id = s then .ok id else .error (.new "invalid UUID format" [])
  uuidParse_uuidString id := by
    rw [readDigits_uuidText, BitVec.ofNat_toNat, BitVec.setWidth_eq]
    exact if_pos rfl
  version id := UInt8.ofNat (id.toNat / 2 ^ 76 % 16)
  urlParse s := .ok ⟨s.takeWhile (· ≠ 58), s⟩
  urlParse_string s u hparse _ := by
    cases hparse
    rfl

def sortedTags : TagOrder where
  slice tags := tags.sort (· ≤ ·)
  nodup _ := Finset.sort_nodup ..
  toFinset _ := Finset.sort_toFinset ..

/-- An id of version 7. -/
def agentID : UUID := BitVec.ofNat 128 (7 * 2 ^ 76)

/-- The URL is `a:`. -/
def agentInfo : RoutingInfo := ⟨[97, 58], [97, 58], {[1]}, []⟩

def agentEvent : NodeEvent := ⟨3, agentID, 100, some ⟨none, some agentInfo⟩⟩

def agentState : RouterState := (RouterState.mergeNodeEvent {} agentEvent).1

theorem gossip_readable_agent :
    agentState.agents.lookup agentID = some ⟨3, 100, some agentInfo, none⟩ ∧
      ∃ s', RouterState.unmarshalProto plainWire
        (agentState.marshalProto plainWire fun _ => sortedTags) = .ok s' ∧ s'.Same agentState := by
  have habsolute : plainWire.Absolute [97, 58] := fun _ _ => rfl
  have hinfo : agentInfo.Wf plainWire := ⟨habsolute, habsolute, by decide, by decide⟩
  have hid : plainWire.parseV7 (plainWire.uuidString agentID) = .ok agentID :=
    Wire.parseV7_uuidString (by decide)
  have hevent : NodeEvent.unmarshalProto plainWire
      { eventIndex := 3
        nodeId := plainWire.uuidString agentID
        timestamp := some 100
        heartbeat := some { routingInfo := some (agentInfo.marshalProto sortedTags) } } =
      .ok agentEvent := by
    simp only [NodeEvent.unmarshalProto, NodeEvent.unmarshalData, Heartbeat.unmarshalProto, hid,
      hinfo.unmarshalProto_marshalProto]
    rfl
  refine ⟨by decide +kernel, ?_⟩
  exact gossip_readable (fun _ => sortedTags) (.event .init hevent)
    ⟨fun _ => rfl, fun _ => rfl⟩

end Router
