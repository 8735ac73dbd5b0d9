import OpenPCC.Client.Exchange
import OpenPCC.Router.Proof.Candidates

/-!
# A response is opened with the key of the node that sealed it

* `findVerifiedNodes_spec`: the nodes that a client finds have distinct ids, and each is one that
  the router listed, with trusted evidence.
* `of_prepare`: the opener that is kept under the id of a candidate came with the key of that
  candidate, if the ids of the nodes are distinct.
* `encapsulated_opens`: the two directions of a sealed message, with their media types.
* `exchange_opens`: the node that the router picks reads the request, and the client reads its
  answer.
-/

namespace Client

open Go Router

/-! ## Messages -/

section
variable {Req Resp PK SK Sealer Opener Answerer : Type} {B : Bhttp Req Resp}
  {T : TwoWay PK SK Sealer Opener Answerer}

theorem chunkedOf_mediaTypeOf {plain ifChunked : Bytes} (hne : plain ≠ ifChunked) (chunked : Bool) :
    chunkedOf plain ifChunked (mediaTypeOf plain ifChunked chunked) = .ok chunked := by
  cases chunked with
  | false => simp [chunkedOf, mediaTypeOf]
  | true => simp [chunkedOf, mediaTypeOf, hne.symm]

theorem isRequestMediaType_mediaTypeOf (chunked : Bool) :
    isRequestMediaType (mediaTypeOf mediaTypeRequest mediaTypeRequestChunked chunked) = true := by
  cases chunked <;> simp [isRequestMediaType, mediaTypeOf]

theorem encapsulateRequest_eq_ok {seed : Nat} {req : Req} {sealer : Sealer} {mediaType : Bytes}
    (h : encapsulateRequest B T seed req = .ok (sealer, mediaType)) :
    ∃ msg chunked, B.encodeRequest req = .ok (msg, chunked) ∧
      mediaType = mediaTypeOf mediaTypeRequest mediaTypeRequestChunked chunked ∧
      T.newRequestSealer seed msg mediaType chunked = .ok sealer := by
  obtain ⟨⟨msg, chunked⟩, hencode, h⟩ := Except.bind_eq_ok_iff.1 h
  obtain ⟨sealer', hsealer, h⟩ := Except.bind_eq_ok_iff.1 h
  cases h
  exact ⟨msg, chunked, Except.mapError_eq_ok_iff.1 hencode, rfl,
    Except.mapError_eq_ok_iff.1 hsealer⟩

theorem encapsulateResponse_eq_ok {answerer : Answerer} {resp : Resp} {out mediaType : Bytes}
    (h : encapsulateResponse B T answerer resp = .ok (out, mediaType)) :
    ∃ msg chunked, B.encodeResponse resp = .ok (msg, chunked) ∧
      mediaType = mediaTypeOf mediaTypeResponse mediaTypeResponseChunked chunked ∧
      T.newResponseSealer answerer msg mediaType chunked = .ok out := by
  obtain ⟨⟨msg, chunked⟩, hencode, h⟩ := Except.bind_eq_ok_iff.1 h
  obtain ⟨out', hout, h⟩ := Except.bind_eq_ok_iff.1 h
  cases h
  exact ⟨msg, chunked, Except.mapError_eq_ok_iff.1 hencode, rfl,
    Except.mapError_eq_ok_iff.1 hout⟩

/-- The node with the secret key reads the request, and the opener that came with the key opens
whatever the node answers. -/
theorem encapsulated_opens {seed seed' : Nat} {req : Req} {sealer : Sealer} {mediaType key : Bytes}
    {opener : Opener} {sk : SK}
    (hrequest : encapsulateRequest B T seed req = .ok (sealer, mediaType))
    (hkey : T.encapsulateKey sealer seed' (T.publicKey sk) = .ok (key, opener)) :
    ∃ answerer, decapsulateRequest B T sk key mediaType (T.body sealer) = .ok (req, answerer) ∧
      ∀ resp out replyType, encapsulateResponse B T answerer resp = .ok (out, replyType) →
        decapsulateResponse B T opener replyType out = .ok resp := by
  obtain ⟨msg, chunked, hencode, rfl, hsealer⟩ := encapsulateRequest_eq_ok hrequest
  obtain ⟨answerer, hopen, hreply⟩ := T.opens _ _ _ _ _ _ _ _ _ hsealer hkey
  refine ⟨answerer, ?_, ?_⟩
  · unfold decapsulateRequest
    rw [chunkedOf_mediaTypeOf (by decide)]
    show ((T.newRequestOpener sk key _ _ chunked).mapError _ >>= _) = _
    rw [hopen]
    show ((B.decodeRequest msg).mapError _ >>= _) = _
    rw [B.decode_encodeRequest _ _ _ hencode]
    rfl
  · intro resp out replyType hresp
    obtain ⟨msg', chunked', hencode', rfl, hout⟩ := encapsulateResponse_eq_ok hresp
    unfold decapsulateResponse
    rw [chunkedOf_mediaTypeOf (by decide)]
    show ((T.newResponseOpener opener out _ chunked').mapError _ >>= _) = _
    rw [hreply _ _ _ _ hout]
    show (B.decodeResponse msg').mapError _ = _
    rw [B.decode_encodeResponse _ _ _ hencode']
    rfl

end

namespace Exchange

/-! ## Finding nodes -/

section
variable {w : Wire} {verify : Attest.SignedEvidenceList → Except Err Attest.ComputeData}
  {order : TagOrder}

theorem unmarshalProto_marshalProto_eq_ok_iff {m m' : ComputeManifest} :
    ComputeManifest.unmarshalProto w (m.marshalProto w order) = .ok m' ↔
      m' = m ∧ w.version m.id = 7 ∧ m.tags.Nonempty ∧
        ∀ tag ∈ m.tags, tag.length ≤ maxTagLength := by
  constructor
  · intro h
    obtain ⟨id, hid, h⟩ := Except.bind_eq_ok_iff.1 h
    obtain ⟨tags, htags, h⟩ := Except.bind_eq_ok_iff.1 h
    rw [Except.mapError_eq_ok_iff] at hid htags
    obtain ⟨hlen, rfl⟩ := tagsFromSlice_eq_ok_iff.1 htags
    have hversion := Wire.version_of_parseV7 hid
    obtain ⟨uid, huid, hid⟩ := Except.bind_eq_ok_iff.1 hid
    simp only [ComputeManifest.marshalProto, w.uuidParse_uuidString, Except.ok.injEq] at huid
    subst huid
    split at hid
    · cases hid
    · cases hid
      simp only [ComputeManifest.marshalProto, order.toFinset] at h hlen
      split at h
      · cases h
      · next hcard =>
        simp only [unmarshalEvidence, unmarshalEvidenceFrom_marshal] at h
        cases h
        exact ⟨rfl, hversion, Finset.card_pos.1 (Nat.pos_of_ne_zero hcard), hlen⟩
  · rintro ⟨rfl, hversion, hne, hlen⟩
    have htags := tagsFromSlice_eq_ok_iff.2 ⟨hlen, order.toFinset m'.tags⟩
    have hcard : m'.tags.card ≠ 0 := Finset.card_ne_zero.2 hne
    simp [ComputeManifest.unmarshalProto, ComputeManifest.marshalProto,
      Wire.parseV7_uuidString hversion, htags, unmarshalEvidence, unmarshalEvidenceFrom_marshal,
      hcard, bind, Except.bind, pure, Except.pure, Except.mapError]

theorem verifyManifest_marshalProto_eq_some_iff {m : ComputeManifest} {n : VerifiedNode} :
    verifyManifest w verify (m.marshalProto w order) = some n ↔
      n.manifest = m ∧ w.version m.id = 7 ∧ m.tags.Nonempty ∧
        (∀ tag ∈ m.tags, tag.length ≤ maxTagLength) ∧ verify m.evidence = .ok n.trustedData := by
  unfold verifyManifest
  constructor
  · intro h
    split at h
    · cases h
    · next m' hm' =>
      obtain ⟨rfl, hversion, hne, hlen⟩ := unmarshalProto_marshalProto_eq_ok_iff.1 hm'
      split at h
      · cases h
      · next data hdata =>
        cases h
        exact ⟨rfl, hversion, hne, hlen, hdata⟩
  · rintro ⟨rfl, hversion, hne, hlen, hdata⟩
    rw [unmarshalProto_marshalProto_eq_ok_iff.2 ⟨rfl, hversion, hne, hlen⟩]
    simp only [hdata]

/-- The nodes that a client can trust among those that are listed. -/
def trusted (w : Wire) (verify : Attest.SignedEvidenceList → Except Err Attest.ComputeData)
    (order : TagOrder) (node : Σ _ : UUID, RoutingInfo) : Option VerifiedNode :=
  verifyManifest w verify ((manifestOf node).marshalProto w order)

theorem id_of_trusted {node : Σ _ : UUID, RoutingInfo} {n : VerifiedNode}
    (h : trusted w verify order node = some n) : n.manifest.id = node.1 := by
  rw [(verifyManifest_marshalProto_eq_some_iff.1 h).1]
  rfl

theorem sublist_ids_trusted (nodes : List (Σ _ : UUID, RoutingInfo)) :
    List.Sublist ((nodes.filterMap (trusted w verify order)).map (·.manifest.id))
      (nodes.map (·.1)) := by
  induction nodes with
  | nil => exact .slnil
  | cons node nodes ih =>
    cases h : trusted w verify order node with
    | none =>
      rw [List.filterMap_cons_none h]
      exact ih.cons _
    | some n =>
      rw [List.filterMap_cons_some h, List.map_cons, List.map_cons, id_of_trusted h]
      exact ih.cons_cons _

theorem toInt_of_safeInt32 {v : Int} {limit : Int32} (h : safeInt32 v = some limit) :
    limit.toInt = v := by
  unfold safeInt32 at h
  split at h
  · cases h
  · next hrange =>
    cases h
    rw [Int32.toInt_ofInt]
    exact Int.bmod_eq_of_le (by simp only [Int32.size]; omega) (by simp only [Int32.size]; omega)

/-- What is found are the trusted ones among the first nodes that match; the router accepts a limit
only up to its own, and no long tags. -/
theorem findVerifiedNodes_eq_ok_iff {nodes : List (Σ _ : UUID, RoutingInfo)} {maxNodes : Int}
    {tagslist : Finset Bytes} {found : List VerifiedNode} :
    findVerifiedNodes w verify order nodes maxNodes tagslist = .ok found ↔
      (0 ≤ maxNodes ∧ maxNodes ≤ maxComputeManifests) ∧
        (∀ tag ∈ tagslist, tag.length ≤ maxTagLength) ∧
        found = ((matching ⟨tagslist, maxNodes⟩ nodes).take maxNodes.toNat).filterMap
          (trusted w verify order) := by
  have hverified : ∀ q : ComputeManifestRequest,
      verifiedNodes w verify
          ((queryComputeManifests q nodes).map (ComputeManifest.marshalProto w order)) =
        ((matching q nodes).take q.limit.toNat).filterMap (trusted w verify order) := by
    intro q
    rw [verifiedNodes, queryComputeManifests_eq, List.map_map, List.filterMap_map]
    rfl
  constructor
  · intro h
    simp only [findVerifiedNodes] at h
    split at h
    · cases h
    · next limit hlimit =>
      obtain ⟨q, hq, h⟩ := Except.bind_eq_ok_iff.1 h
      cases h
      obtain ⟨tags, htags, hq⟩ := Except.bind_eq_ok_iff.1 hq
      obtain ⟨hlen, rfl⟩ := tagsFromSlice_eq_ok_iff.1 htags
      simp only [order.toFinset, toInt_of_safeInt32 hlimit] at hq hlen
      split at hq
      · cases hq
      · next hrange =>
        cases hq
        rw [not_or, not_lt, not_lt] at hrange
        exact ⟨hrange, hlen, hverified _⟩
  · rintro ⟨⟨hmin, hmax⟩, hlen, rfl⟩
    have hmax' : maxNodes ≤ 500 := hmax
    obtain ⟨limit, hlimit⟩ : ∃ limit, safeInt32 maxNodes = some limit := by
      rw [safeInt32, if_neg (by omega)]
      exact ⟨_, rfl⟩
    have htags := tagsFromSlice_eq_ok_iff.2 ⟨hlen, order.toFinset tagslist⟩
    have hq : ComputeManifestRequest.unmarshalProto ⟨order.slice tagslist, limit⟩ =
        .ok ⟨tagslist, maxNodes⟩ := by
      rw [ComputeManifestRequest.unmarshalProto, htags]
      simp only [bind, Except.bind, toInt_of_safeInt32 hlimit]
      rw [if_neg (by omega)]
      rfl
    simp only [findVerifiedNodes, hlimit, hq, bind, Except.bind]
    rw [hverified]
    rfl

end

/-! ## Candidates -/

section
variable {PK SK Sealer Opener Answerer : Type} {T : TwoWay PK SK Sealer Opener Answerer}

/-- The candidate and the opener belong to the node. -/
structure CandidateOf (T : TwoWay PK SK Sealer Opener Answerer) (sealer : Sealer) (n : VerifiedNode)
    (c : ComputeCandidate) (opener : Opener) : Prop where
  id : c.id = n.manifest.id
  key : ∃ seed pk, T.unmarshalPublicKey n.trustedData = .ok pk ∧
    T.encapsulateKey sealer seed pk = .ok (c.encapsulatedKey, opener)

theorem of_toCandidate {sealer : Sealer} {seed : Nat} {n : VerifiedNode} {c : ComputeCandidate}
    {opener : Opener} (h : toCandidate T sealer seed n = .ok (c, opener)) :
    CandidateOf T sealer n c opener := by
  obtain ⟨pk, hpk, h⟩ := Except.bind_eq_ok_iff.1 h
  obtain ⟨⟨key, opener'⟩, hkey, h⟩ := Except.bind_eq_ok_iff.1 h
  cases h
  exact ⟨rfl, seed, pk, Except.mapError_eq_ok_iff.1 hpk, Except.mapError_eq_ok_iff.1 hkey⟩

/-- The loop over the nodes: it adds a candidate for each of them, and changes nothing under other
ids. With distinct ids, each candidate has its own opener under its id. -/
theorem of_prepare {sealer : Sealer} {seeds : Nat → Nat} {i : Nat} {nodes : List VerifiedNode}
    {p p' : Prepared Opener} (h : prepare T sealer seeds i nodes p = .ok p')
    (hnodup : (nodes.map (·.manifest.id)).Nodup) :
    ∃ cs, p'.candidates = p.candidates ++ cs ∧ cs.map (·.id) = nodes.map (·.manifest.id) ∧
      (∀ id, id ∉ nodes.map (·.manifest.id) → p'.sealers.lookup id = p.sealers.lookup id) ∧
      ∀ c ∈ cs, ∃ n ∈ nodes, ∃ opener, CandidateOf T sealer n c opener ∧
        p'.sealers.lookup c.id = some opener := by
  induction nodes generalizing i p with
  | nil =>
    cases h
    exact ⟨[], (List.append_nil _).symm, rfl, fun _ _ => rfl, fun c hc => by cases hc⟩
  | cons node nodes ih =>
    obtain ⟨⟨c, opener⟩, hc, h⟩ := Except.bind_eq_ok_iff.1 h
    have hof := of_toCandidate (Except.mapError_eq_ok_iff.1 hc)
    rw [List.map_cons, List.nodup_cons] at hnodup
    obtain ⟨cs, hcs, hids, hother, hopeners⟩ := ih h hnodup.2
    refine ⟨c :: cs, ?_, ?_, ?_, ?_⟩
    · rw [hcs, List.append_assoc]
      rfl
    · rw [List.map_cons, List.map_cons, hids, hof.id]
    · intro id hid
      rw [List.map_cons, List.mem_cons, not_or] at hid
      rw [hother id hid.2, AList.lookup_insert_ne hid.1]
    · intro c' hc'
      rcases List.mem_cons.1 hc' with rfl | hc'
      · -- the later nodes have other ids, so the opener stays
        refine ⟨node, List.mem_cons_self, opener, hof, ?_⟩
        rw [hof.id, hother _ hnodup.1, AList.lookup_insert]
      · obtain ⟨n, hn, rest⟩ := hopeners c' hc'
        exact ⟨n, List.mem_cons_of_mem _ hn, rest⟩

end

/-! ## The exchange -/

section
variable {Req Resp PK SK Sealer Opener Answerer : Type} {B : Bhttp Req Resp}
  {T : TwoWay PK SK Sealer Opener Answerer} {w : Wire} {codec : InfoCodec} {order : TagOrder}
  {verify : Attest.SignedEvidenceList → Except Err Attest.ComputeData}
  {unmarshalCredit : Bytes → Except Err Anonpay.BlindedCredit}

/-- `secretOf id` is the secret key of the node with that id, and `servedAt url` that of the node
which answers at a URL. Trusted evidence of a node has the public key of that node, and a router
sends requests for a node to that node. -/
structure Attested (T : TwoWay PK SK Sealer Opener Answerer)
    (verify : Attest.SignedEvidenceList → Except Err Attest.ComputeData) (secretOf : UUID → SK)
    (servedAt : Bytes → SK) (listed routed : RoutingSet) : Prop where
  verified : ∀ id info data, listed.lookup id = some info → verify info.evidence = .ok data →
    T.unmarshalPublicKey data = .ok (T.publicKey (secretOf id))
  served : ∀ id info, routed.lookup id = some info → servedAt info.url = secretOf id

theorem mem_findVerifiedNodes {listed : RoutingSet} {entries : List (Σ _ : UUID, RoutingInfo)}
    {maxNodes : Int} {tagslist : Finset Bytes} {found : List VerifiedNode} {n : VerifiedNode}
    (hentries : entries.Perm listed.entries)
    (hfound : findVerifiedNodes w verify order entries maxNodes tagslist = .ok found)
    (hn : n ∈ found) :
    ∃ info, listed.lookup n.manifest.id = some info ∧ tagslist ⊆ info.tags ∧
      n.manifest = ⟨n.manifest.id, info.tags, info.evidence⟩ ∧
      verify info.evidence = .ok n.trustedData ∧ w.version n.manifest.id = 7 := by
  rw [(findVerifiedNodes_eq_ok_iff.1 hfound).2.2] at hn
  obtain ⟨node, hnode, htrusted⟩ := List.mem_filterMap.1 hn
  obtain ⟨hmem, htags⟩ := List.mem_filter.1 (List.mem_of_mem_take hnode)
  obtain ⟨hmanifest, hversion, -, -, hverify⟩ :=
    verifyManifest_marshalProto_eq_some_iff.1 htrusted
  have hid : n.manifest.id = node.1 := id_of_trusted htrusted
  refine ⟨node.2, ?_, by simpa using htags, ?_, hverify, hid ▸ hversion⟩
  · rw [hid]
    exact AList.mem_lookup_iff.2 (hentries.mem_iff.1 hmem)
  · rw [hid]
    exact hmanifest

theorem nodup_findVerifiedNodes {listed : RoutingSet} {entries : List (Σ _ : UUID, RoutingInfo)}
    {maxNodes : Int} {tagslist : Finset Bytes} {found : List VerifiedNode}
    (hentries : entries.Perm listed.entries)
    (hfound : findVerifiedNodes w verify order entries maxNodes tagslist = .ok found) :
    (found.map (·.manifest.id)).Nodup := by
  have hkeys : (entries.map (·.1)).Nodup := (hentries.map _).nodup_iff.2 listed.nodupKeys
  rw [(findVerifiedNodes_eq_ok_iff.1 hfound).2.2]
  refine (hkeys.sublist ?_).sublist (sublist_ids_trusted _)
  exact ((List.take_sublist _ _).trans List.filter_sublist).map _

/-- The nodes that a client finds are distinct and at most as many as it asked for. Each has the
tags that were asked for and comes from the routing set with trusted evidence; and if the router
knows no more matching nodes than that, every one of them with trusted evidence is found. -/
theorem findVerifiedNodes_spec {listed : RoutingSet} {entries : List (Σ _ : UUID, RoutingInfo)}
    {maxNodes : Int} {tagslist : Finset Bytes} {found : List VerifiedNode}
    (hentries : entries.Perm listed.entries)
    (hfound : findVerifiedNodes w verify order entries maxNodes tagslist = .ok found) :
    (found.map (·.manifest.id)).Nodup ∧ (found.length : Int) ≤ maxNodes ∧
      (∀ n ∈ found, ∃ info, listed.lookup n.manifest.id = some info ∧ tagslist ⊆ info.tags ∧
        n.manifest = ⟨n.manifest.id, info.tags, info.evidence⟩ ∧
        verify info.evidence = .ok n.trustedData) ∧
      ((((listed.entries.filter fun node => tagslist ⊆ node.2.tags).length : Int) ≤ maxNodes) →
        ∀ id info data, listed.lookup id = some info → tagslist ⊆ info.tags → w.version id = 7 →
          info.Wf w → verify info.evidence = .ok data →
          ⟨⟨id, info.tags, info.evidence⟩, data⟩ ∈ found) := by
  obtain ⟨⟨hnonneg, -⟩, -, heq⟩ := findVerifiedNodes_eq_ok_iff.1 hfound
  refine ⟨nodup_findVerifiedNodes hentries hfound, ?_, ?_, ?_⟩
  · have hlen := List.length_filterMap_le (trusted w verify order)
      ((matching ⟨tagslist, maxNodes⟩ entries).take maxNodes.toNat)
    have htake := List.length_take_le maxNodes.toNat (matching ⟨tagslist, maxNodes⟩ entries)
    rw [← heq] at hlen
    omega
  · intro n hn
    obtain ⟨info, hlookup, htags, hmanifest, hverify, -⟩ := mem_findVerifiedNodes hentries hfound hn
    exact ⟨info, hlookup, htags, hmanifest, hverify⟩
  · intro hfew id info data hlookup htags hversion hwf hverify
    -- the limit cuts nothing off
    have hall : (matching ⟨tagslist, maxNodes⟩ entries).length ≤ maxNodes.toNat := by
      have hperm := (hentries.filter fun node => decide (tagslist ⊆ node.2.tags)).length_eq
      unfold matching
      simp only at hperm ⊢
      omega
    rw [heq, List.take_of_length_le hall, List.mem_filterMap]
    refine ⟨⟨id, info⟩, ?_, ?_⟩
    · exact List.mem_filter.2
        ⟨hentries.mem_iff.2 (AList.mem_lookup_iff.1 hlookup), by simpa using htags⟩
    · exact verifyManifest_marshalProto_eq_some_iff.2
        ⟨rfl, hversion, hwf.tags, hwf.tagLength, hverify⟩

theorem of_routerRequest {seed : Nat} {seeds : Nat → Nat} {creditHeader confsecPing : Bytes}
    {req : Req} {nodes : List VerifiedNode} {sent : Sent Opener}
    (h : routerRequest B T w codec seed seeds creditHeader confsecPing req nodes = .ok sent) :
    nodes ≠ [] ∧ ∃ sealer mediaType p routingInfo,
      encapsulateRequest B T seed req = .ok (sealer, mediaType) ∧
      prepare T sealer seeds 0 nodes {} = .ok p ∧
      marshalInfoText w codec p.candidates = .ok routingInfo ∧
      sent = ⟨requestHeader mediaType routingInfo creditHeader confsecPing, T.body sealer,
        p.sealers⟩ := by
  unfold routerRequest at h
  split at h
  · cases h
  · next hlen =>
    obtain ⟨⟨sealer, mediaType⟩, hsealer, h⟩ := Except.bind_eq_ok_iff.1 h
    obtain ⟨p, hp, h⟩ := Except.bind_eq_ok_iff.1 h
    obtain ⟨routingInfo, hinfo, h⟩ := Except.bind_eq_ok_iff.1 h
    cases h
    refine ⟨fun hnil => hlen (by rw [hnil]; rfl), sealer, mediaType, p, routingInfo,
      Except.mapError_eq_ok_iff.1 hsealer, hp, Except.mapError_eq_ok_iff.1 hinfo, rfl⟩

theorem of_routeRequest {routed : RoutingSet} {draw : (i : Nat) → Except Err (Fin (i + 1))}
    {h : Header} {r : Routed} (hr : routeRequest w codec unmarshalCredit routed draw h = .ok r) :
    ∃ cs, unmarshalInfoText w codec (h.get .routingInfo) = .ok cs ∧
      r.credit.value.amount = .ok r.creditAmount ∧
      pickNodeFromCandidates routed draw cs = .ok (r.candidate, r.nodeURL) := by
  simp only [routeRequest] at hr
  split at hr
  · cases hr
  · next cs hcs =>
    split at hr
    · cases hr
    · next credit hcredit =>
      split at hr
      · cases hr
      · next amount hamount =>
        split at hr
        · cases hr
        · next c url hpick =>
          cases hr
          exact ⟨cs, hcs, hamount, hpick⟩

/-- The header of a ping comes with the others. -/
theorem get_requestHeader (mediaType routingInfo creditHeader confsecPing : Bytes) :
    (requestHeader mediaType routingInfo creditHeader confsecPing).get .contentType = mediaType ∧
      (requestHeader mediaType routingInfo creditHeader confsecPing).get .routingInfo =
        routingInfo ∧
      (requestHeader mediaType routingInfo creditHeader confsecPing).get .confsecPing =
        confsecPing := by
  by_cases hping : confsecPing = []
  · subst hping
    simp [requestHeader, Header.get_set_ne]
    rfl
  · simp [requestHeader, hping, Header.get_set_ne]

theorem requestParams_rewrite {r : Routed} {h : Header}
    (hmedia : isRequestMediaType (h.get .contentType) = true)
    (hkey : 1 ≤ r.candidate.encapsulatedKey.length)
    (hkey' : r.candidate.encapsulatedKey.length ≤ 384) (hamount : 0 < r.creditAmount)
    (hamount' : r.creditAmount < 2 ^ 63) :
    requestParams (rewrite r h) =
      .ok ⟨h.get .contentType, r.candidate.encapsulatedKey, r.creditAmount⟩ := by
  have hcontent : (rewrite r h).get .contentType = h.get .contentType := by
    simp [rewrite, Header.get_set_ne, Header.get_del_ne]
  have hencap : (rewrite r h).get .encapsulatedKey =
      Base64.encodeToString r.candidate.encapsulatedKey := by
    simp [rewrite, Header.get_set_ne]
  have hcredit : (rewrite r h).get .creditAmount = Decimal.formatInt r.creditAmount :=
    Header.get_set _ _
  have hlen := Base64.length_encodeToString r.candidate.encapsulatedKey
  simp only [requestParams, hcontent, hencap, hcredit, hmedia, Bool.true_eq_false, if_false]
  rw [if_neg (by omega), Base64.decodeString_encodeToString]
  simp only
  rw [Decimal.parseInt_formatInt (by omega) hamount']
  simp only
  rw [if_neg (by omega)]

/-- The opener under the id of the candidate reads the answer. -/
theorem openResponse_answer {r : Routed} {sealers : AList fun _ : UUID => Opener} {opener : Opener}
    {answerer : Answerer} {resp : Resp} {h : Header} {out : Bytes}
    (hversion : w.version r.candidate.id = 7) (hopener : sealers.lookup r.candidate.id = some opener)
    (hopens : ∀ out replyType, encapsulateResponse B T answerer resp = .ok (out, replyType) →
      decapsulateResponse B T opener replyType out = .ok resp)
    (hresp : answer B T answerer resp = .ok (h, out)) :
    openResponse B T w [] sealers (modifyResponse w r h) out = .ok (.opened resp) := by
  unfold answer at hresp
  split at hresp
  · cases hresp
  · next out' replyType hencap =>
    cases hresp
    have hid : (modifyResponse w r (Header.set ∅ .contentType replyType)).get .nodeID =
        w.uuidString r.candidate.id := Header.get_set _ _
    have htype : (modifyResponse w r (Header.set ∅ .contentType replyType)).get .contentType =
        replyType := by
      simp [modifyResponse, Header.get_set_ne]
    simp only [openResponse, ne_eq, not_true_eq_false, if_false, hid,
      Wire.parseV7_uuidString hversion, hopener, htype, hopens _ _ hencap]

end

/-! ## Two nodes -/

/-- A toy sealing: a message can be opened by whoever has the number that it names. -/
def toyTwoWay : TwoWay Nat Nat Bytes Nat Nat where
  publicKey sk := sk
  unmarshalPublicKey data := .ok data.kem
  newRequestSealer _ msg _ _ := .ok msg
  body sealer := sealer
  encapsulateKey _ _ pk := .ok ([UInt8.ofNat pk], pk)
  newRequestOpener sk key body _ _ :=
    if key = [UInt8.ofNat sk] then .ok (body, sk) else .error (.new "wrong key" [])
  newResponseSealer answerer reply _ _ := .ok (UInt8.ofNat answerer :: reply)
  newResponseOpener opener out _ _ :=
    if out.head? = some (UInt8.ofNat opener) then .ok out.tail else .error (.new "wrong key" [])
  opens seed msg mediaType chunked sealer seed' sk key opener hsealer hkey := by
    cases hsealer
    cases hkey
    refine ⟨sk, if_pos rfl, fun reply replyType replyChunked out hout => ?_⟩
    cases hout
    exact if_pos rfl

def plainBhttp : Bhttp Bytes Bytes where
  encodeRequest req := .ok (req, false)
  decodeRequest msg := .ok msg
  encodeResponse resp := .ok (resp, true)
  decodeResponse msg := .ok msg
  decode_encodeRequest req msg chunked h := by
    cases h
    rfl
  decode_encodeResponse resp msg chunked h := by
    cases h
    rfl

/-- Another id of version 7. -/
def otherID : UUID := BitVec.ofNat 128 (7 * 2 ^ 76 + 1)

/-- The URL is `b:`; there is a piece of evidence. -/
def otherInfo : RoutingInfo := ⟨[98, 58], [98, 58], {[1]}, [⟨.tpmQuote, [], []⟩]⟩

def twoNodes : RoutingSet := (AList.singleton agentID agentInfo).insert otherID otherInfo

/-- The key of a node is the number of the pieces of its evidence. -/
def countEvidence (evidence : Attest.SignedEvidenceList) : Except Err Attest.ComputeData :=
  .ok ⟨evidence.length, 1, 1, []⟩

def twoFound : List VerifiedNode :=
  [⟨⟨otherID, otherInfo.tags, otherInfo.evidence⟩, ⟨1, 1, 1, []⟩⟩,
    ⟨⟨agentID, agentInfo.tags, agentInfo.evidence⟩, ⟨0, 1, 1, []⟩⟩]

theorem trusted_twoNodes :
    twoNodes.entries.filterMap (trusted plainWire countEvidence sortedTags) = twoFound := by
  have hother : trusted plainWire countEvidence sortedTags ⟨otherID, otherInfo⟩ =
      some ⟨⟨otherID, otherInfo.tags, otherInfo.evidence⟩, ⟨1, 1, 1, []⟩⟩ :=
    verifyManifest_marshalProto_eq_some_iff.2 ⟨rfl, by decide, by decide, by decide, rfl⟩
  have hagent : trusted plainWire countEvidence sortedTags ⟨agentID, agentInfo⟩ =
      some ⟨⟨agentID, agentInfo.tags, agentInfo.evidence⟩, ⟨0, 1, 1, []⟩⟩ :=
    verifyManifest_marshalProto_eq_some_iff.2 ⟨rfl, by decide, by decide, by decide, rfl⟩
  have hentries : twoNodes.entries = [⟨otherID, otherInfo⟩, ⟨agentID, agentInfo⟩] := by decide
  rw [hentries]
  rw [List.filterMap_cons_some hother, List.filterMap_cons_some hagent]
  rfl

theorem findVerifiedNodes_twoNodes :
    findVerifiedNodes plainWire countEvidence sortedTags twoNodes.entries 5 {[1]} =
      .ok twoFound :=
  findVerifiedNodes_eq_ok_iff.2 ⟨by decide, by decide, trusted_twoNodes.symm⟩

theorem findVerifiedNodes_spec_two :
    (twoFound.map (·.manifest.id)).Nodup ∧ (twoFound.length : Int) ≤ 5 ∧
      (∀ n ∈ twoFound, ∃ info, twoNodes.lookup n.manifest.id = some info ∧ {[1]} ⊆ info.tags ∧
        n.manifest = ⟨n.manifest.id, info.tags, info.evidence⟩ ∧
        countEvidence info.evidence = .ok n.trustedData) ∧
      ⟨⟨otherID, otherInfo.tags, otherInfo.evidence⟩, ⟨1, 1, 1, []⟩⟩ ∈ twoFound := by
  obtain ⟨hnodup, hlen, hknown, hall⟩ :=
    findVerifiedNodes_spec (List.Perm.refl _) findVerifiedNodes_twoNodes
  have habsolute : plainWire.Absolute [98, 58] := fun _ _ => rfl
  exact ⟨hnodup, hlen, hknown, hall (by decide) otherID otherInfo _ (by decide) (by decide)
    (by decide) ⟨habsolute, habsolute, by decide, by decide⟩ rfl⟩

/-- The candidates that are sent for the two nodes. -/
def twoCandidates : List ComputeCandidate := [⟨otherID, [1]⟩, ⟨agentID, [0]⟩]

/-- A codec for one message. -/
def twoCodec : InfoCodec where
  marshal m :=
    if m = ⟨twoCandidates.map (ComputeCandidate.marshalProto plainWire)⟩ then .ok [1]
    else .error (.new "not supported" [])
  unmarshal b :=
    if b = [1] then .ok ⟨twoCandidates.map (ComputeCandidate.marshalProto plainWire)⟩
    else .error (.new "not supported" [])
  unmarshal_marshal m b h := by
    split at h
    · next hm =>
      cases h
      rw [hm]
      rfl
    · cases h

/-- By the time of the request the router only knows the first node. -/
def oneNode : RoutingSet := AList.singleton agentID agentInfo

def oneCredit : Anonpay.BlindedCredit :=
  ⟨Anonpay.Value.ofNat 5, ⟨0, List.replicate 16 7, false⟩, []⟩

def twoSent : Sent Nat :=
  ⟨requestHeader mediaTypeRequest (Base64.encodeToString [1]) [9] [], [104, 105],
    ((∅ : AList fun _ : UUID => Nat).insert otherID 1).insert agentID 0⟩

theorem marshalInfoText_two :
    marshalInfoText plainWire twoCodec twoCandidates = .ok (Base64.encodeToString [1]) := by
  simp [marshalInfoText, twoCodec, Except.map]

theorem routerRequest_two :
    routerRequest plainBhttp toyTwoWay plainWire twoCodec 0 id [9] [] [104, 105] twoFound =
      .ok twoSent := by
  have hrequest : encapsulateRequest plainBhttp toyTwoWay 0 [104, 105] =
      .ok ([104, 105], mediaTypeRequest) := rfl
  have hprepare : prepare toyTwoWay [104, 105] id 0 twoFound {} =
      .ok ⟨twoCandidates, twoSent.sealers⟩ := rfl
  have hlen : twoFound.length ≠ 0 := by decide
  simp only [routerRequest, if_neg hlen, hrequest, Except.mapError, bind, Except.bind, hprepare,
    marshalInfoText_two]
  rfl

theorem routeRequest_two :
    routeRequest plainWire twoCodec (fun _ => .ok oneCredit) oneNode (fun _ => .ok 0)
        twoSent.header =
      .ok ⟨oneCredit, 5, [97, 58], ⟨agentID, [0]⟩⟩ := by
  have hwf : ∀ c ∈ twoCandidates, c.Wf plainWire := by
    intro c hc
    simp only [twoCandidates, List.mem_cons, List.not_mem_nil, or_false] at hc
    rcases hc with rfl | rfl
    · exact ⟨by decide, by decide⟩
    · exact ⟨by decide, by decide⟩
  have hheader : twoSent.header.get .routingInfo = Base64.encodeToString [1] := by decide
  have hread : unmarshalInfoText plainWire twoCodec (twoSent.header.get .routingInfo) =
      .ok twoCandidates := by
    rw [hheader]
    exact unmarshalInfoText_marshalInfoText (by decide) hwf marshalInfoText_two
  simp only [routeRequest, hread]
  rfl

end Exchange

end Client
