import OpenPCC.Router.Candidates
import OpenPCC.Router.Proof.Wire

/-!
# The choice of a node

* `unmarshalInfoText_marshalInfoText`: a router reads the candidates that a client has sent.
* `of_pickNodeFromCandidates`: the candidate that is picked is the first with its id, and the router
  knows the node.
* `pickNodeFromCandidates_once`: of candidates with distinct ids, each that the router knows is
  picked for exactly one number that is drawn.
* `queryComputeManifests_eq`: the manifests that are listed are those of the first nodes that match,
  up to the limit.
-/

namespace Router

open Go

variable {w : Wire}

/-! ## Texts -/

/-- A candidate that can be sent. -/
structure ComputeCandidate.Wf (w : Wire) (c : ComputeCandidate) : Prop where
  version : w.version c.id = 7
  key : c.encapsulatedKey ≠ []

theorem ComputeCandidate.Wf.unmarshalProto_marshalProto {c : ComputeCandidate} (h : c.Wf w) :
    ComputeCandidate.unmarshalProto w (c.marshalProto w) = .ok c := by
  have hkey : c.encapsulatedKey.length ≠ 0 := by
    rw [Ne, List.length_eq_zero_iff]
    exact h.key
  simp [ComputeCandidate.unmarshalProto, ComputeCandidate.marshalProto,
    Wire.parseV7_uuidString h.version, hkey, Except.mapError, bind, Except.bind, pure, Except.pure]

theorem unmarshalCandidatesFrom_marshal {cs : List ComputeCandidate} (h : ∀ c ∈ cs, c.Wf w)
    (i : Nat) :
    unmarshalCandidatesFrom w i (cs.map (ComputeCandidate.marshalProto w)) = .ok cs := by
  induction cs generalizing i with
  | nil => rfl
  | cons c cs ih =>
    rw [List.map_cons, unmarshalCandidatesFrom,
      (h c List.mem_cons_self).unmarshalProto_marshalProto,
      ih fun c hc => h c (List.mem_cons_of_mem _ hc)]
    rfl

theorem unmarshalInfoText_marshalInfoText {codec : InfoCodec} {cs : List ComputeCandidate}
    {t : Bytes} (hne : cs ≠ []) (hwf : ∀ c ∈ cs, c.Wf w) (h : marshalInfoText w codec cs = .ok t) :
    unmarshalInfoText w codec t = .ok cs := by
  unfold marshalInfoText at h
  cases hmarshal : codec.marshal ⟨cs.map (ComputeCandidate.marshalProto w)⟩ with
  | error e =>
    rw [hmarshal] at h
    cases h
  | ok b =>
    rw [hmarshal] at h
    cases h
    have hlen : (cs.map (ComputeCandidate.marshalProto w)).length ≠ 0 := by
      simpa using hne
    unfold unmarshalInfoText
    rw [Base64.decodeString_encodeToString]
    show codec.unmarshal b >>= unmarshalCandidates w = _
    rw [codec.unmarshal_marshal _ _ hmarshal]
    show unmarshalCandidates w _ = _
    rw [unmarshalCandidates, if_neg hlen, unmarshalCandidatesFrom_marshal hwf]

/-! ## Headers -/

namespace Header

variable (h : Header) {name name' : HeaderName} (v : Bytes)

@[simp] theorem get_set : (h.set name v).get name = v := by
  rw [get, set, AList.lookup_insert]
  rfl

theorem get_set_ne (hne : name ≠ name') : (h.set name' v).get name = h.get name := by
  rw [get, set, AList.lookup_insert_ne hne, get]

@[simp] theorem get_del : (h.del name).get name = [] := by
  rw [get, del, AList.lookup_erase]
  rfl

theorem get_del_ne (hne : name ≠ name') : (h.del name').get name = h.get name := by
  rw [get, del, AList.lookup_erase_ne hne, get]

end Header

/-! ## The choice -/

section
variable {nodes : RoutingSet} {cs : List ComputeCandidate} {c : ComputeCandidate}

theorem mem_queryRoutingInfoForCandidates {x : UUID × RoutingInfo} :
    x ∈ queryRoutingInfoForCandidates nodes cs ↔
      (∃ c ∈ cs, c.id = x.1) ∧ nodes.lookup x.1 = some x.2 := by
  simp only [queryRoutingInfoForCandidates, List.mem_filterMap, Option.map_eq_some_iff]
  constructor
  · rintro ⟨c, hc, info, hinfo, rfl⟩
    exact ⟨⟨c, hc, rfl⟩, hinfo⟩
  · rintro ⟨⟨c, hc, hid⟩, hinfo⟩
    exact ⟨c, hc, x.2, hid ▸ hinfo, by rw [hid]⟩

theorem of_pickNodeFromCandidates {draw : (i : Nat) → Except Err (Fin (i + 1))} {url : Bytes}
    (h : pickNodeFromCandidates nodes draw cs = .ok (c, url)) :
    cs.find? (fun c' => c'.id = c.id) = some c ∧
      ∃ info, nodes.lookup c.id = some info ∧ info.url = url := by
  simp only [pickNodeFromCandidates] at h
  split at h
  · cases h
  · next info infos hquery =>
    split at h
    · cases h
    · next i hi =>
      split at h
      · next c' hfind =>
        cases h
        have hid : c.id = ((info :: infos).get i).1 := by
          simpa using List.find?_some hfind
        have hmem : (info :: infos).get i ∈ queryRoutingInfoForCandidates nodes cs := by
          rw [hquery]
          exact List.get_mem _ _
        rw [mem_queryRoutingInfoForCandidates, ← hid] at hmem
        exact ⟨by rw [hid]; exact hfind, _, hmem.2, rfl⟩
      · cases h

theorem find?_id_of_nodup (hnodup : (cs.map (·.id)).Nodup) (hc : c ∈ cs) :
    cs.find? (fun c' => c'.id = c.id) = some c := by
  have hsome : (cs.find? fun c' => c'.id = c.id).isSome := by
    rw [List.find?_isSome]
    exact ⟨c, hc, by simp⟩
  obtain ⟨c', hfind⟩ := Option.isSome_iff_exists.1 hsome
  have hid : c'.id = c.id := by simpa using List.find?_some hfind
  rw [hfind, List.inj_on_of_nodup_map hnodup (List.mem_of_find?_eq_some hfind) hc hid]

theorem nodup_queryRoutingInfoForCandidates (hnodup : (cs.map (·.id)).Nodup) :
    ((queryRoutingInfoForCandidates nodes cs).map (·.1)).Nodup := by
  refine hnodup.sublist ?_
  unfold queryRoutingInfoForCandidates
  rw [List.map_filterMap]
  induction cs with
  | nil => exact .slnil
  | cons c cs ih =>
    rw [List.map_cons] at hnodup ⊢
    have hrest := ih (List.nodup_cons.1 hnodup).2
    cases hlookup : nodes.lookup c.id with
    | none =>
      rw [List.filterMap_cons_none (by simp [hlookup])]
      exact hrest.cons _
    | some info =>
      rw [List.filterMap_cons_some (b := c.id) (by simp [hlookup])]
      exact hrest.cons_cons _

/-- Every candidate that the router knows is picked for exactly one of the numbers that can be
drawn, if the ids of the candidates are distinct: a uniform draw is a uniform choice of a node. -/
theorem pickNodeFromCandidates_once (hnodup : (cs.map (·.id)).Nodup) (hc : c ∈ cs)
    {info : RoutingInfo} (hinfo : nodes.lookup c.id = some info) :
    ∃ n, (queryRoutingInfoForCandidates nodes cs).length = n + 1 ∧
      ∃! i : Fin (n + 1), ∀ draw : (i : Nat) → Except Err (Fin (i + 1)), draw n = .ok i →
        pickNodeFromCandidates nodes draw cs = .ok (c, info.url) := by
  have hmem : (c.id, info) ∈ queryRoutingInfoForCandidates nodes cs :=
    mem_queryRoutingInfoForCandidates.2 ⟨⟨c, hc, rfl⟩, hinfo⟩
  have hinfos : ((queryRoutingInfoForCandidates nodes cs).map (·.1)).Nodup :=
    nodup_queryRoutingInfoForCandidates hnodup
  cases hquery : queryRoutingInfoForCandidates nodes cs with
  | nil =>
    rw [hquery] at hmem
    cases hmem
  | cons x infos =>
    rw [hquery] at hmem hinfos
    obtain ⟨i, hi⟩ := List.get_of_mem hmem
    refine ⟨infos.length, rfl, i, ?_, ?_⟩
    · intro draw hdraw
      simp only [pickNodeFromCandidates, hquery, hdraw, hi]
      rw [find?_id_of_nodup hnodup hc]
    · intro j hj
      -- the number of the draw can be read off the id of the picked node
      have hpick := hj (fun m => if h : m = infos.length then .ok (h ▸ j) else .ok 0) (by simp)
      simp only [pickNodeFromCandidates, hquery, dite_true] at hpick
      split at hpick
      · next c' hfind =>
        simp only [Except.ok.injEq, Prod.mk.injEq] at hpick
        obtain ⟨rfl, -⟩ := hpick
        have hid : c'.id = ((x :: infos).get j).1 := by simpa using List.find?_some hfind
        have hget : (x :: infos).get j = (x :: infos).get i := by
          refine List.inj_on_of_nodup_map hinfos (List.get_mem _ _) (List.get_mem _ _) ?_
          rw [hi, ← hid]
        exact List.nodup_iff_injective_get.1 hinfos.of_map hget
      · cases hpick

/-- Two nodes that a router can route to. -/
def routable : RoutingSet := (AList.singleton 1 agentInfo).insert agentID agentInfo

theorem pickNodeFromCandidates_once_two :
    let cs : List ComputeCandidate := [⟨0, [2]⟩, ⟨1, [3]⟩, ⟨agentID, [1]⟩]
    (queryRoutingInfoForCandidates routable cs).length = 2 ∧
      ∃ n, (queryRoutingInfoForCandidates routable cs).length = n + 1 ∧
        ∃! i : Fin (n + 1), ∀ draw : (i : Nat) → Except Err (Fin (i + 1)), draw n = .ok i →
          pickNodeFromCandidates routable draw cs = .ok (⟨agentID, [1]⟩, agentInfo.url) :=
  ⟨by decide, pickNodeFromCandidates_once (by decide) (by decide) (by decide)⟩

end

/-! ## Manifests -/

section
variable {q : ComputeManifestRequest}

/-- The manifest of a node. -/
def manifestOf (node : Σ _ : UUID, RoutingInfo) : ComputeManifest :=
  ⟨node.1, node.2.tags, node.2.evidence⟩

/-- The nodes that match a request. -/
def matching (q : ComputeManifestRequest) (nodes : List (Σ _ : UUID, RoutingInfo)) :
    List (Σ _ : UUID, RoutingInfo) :=
  nodes.filter fun node => q.tags ⊆ node.2.tags

theorem listManifests_eq {n : Nat} (hn : (n : Int) ≤ q.limit)
    (nodes : List (Σ _ : UUID, RoutingInfo)) :
    listManifests q n nodes = ((matching q nodes).take (q.limit - n).toNat).map manifestOf := by
  induction nodes generalizing n with
  | nil => simp [listManifests, matching]
  | cons node nodes ih =>
    unfold listManifests
    split
    · next hlimit =>
      have hzero : (q.limit - n).toNat = 0 := by omega
      rw [hzero]
      rfl
    · next hne =>
      split
      · next hmatch =>
        have hsucc : (q.limit - n).toNat = (q.limit - (n + 1 : Nat)).toNat + 1 := by omega
        rw [matching, List.filter_cons_of_pos (by simpa using hmatch), hsucc, List.take_succ_cons,
          List.map_cons, ih (n := n + 1) (by omega)]
        rfl
      · next hmatch =>
        rw [matching, List.filter_cons_of_neg (by simpa using hmatch)]
        exact ih hn

theorem queryComputeManifests_eq (q : ComputeManifestRequest)
    (nodes : List (Σ _ : UUID, RoutingInfo)) :
    queryComputeManifests q nodes = ((matching q nodes).take q.limit.toNat).map manifestOf := by
  unfold queryComputeManifests
  split
  · next hlimit =>
    have hzero : q.limit.toNat = 0 := by omega
    rw [hzero]
    rfl
  · next hlimit =>
    have heq := listManifests_eq (q := q) (n := 0) (by omega) nodes
    simpa using heq

end

end Router
