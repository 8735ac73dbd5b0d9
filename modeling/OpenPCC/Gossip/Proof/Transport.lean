import OpenPCC.Gossip.Proof.Reassembly

/-!
# From the broadcasters to a receiver

The chunks of broadcasters with distinct ids, delivered to a receiver in any order and any number of
times, give every message once and nothing else, exactly if no message is cut into `2 ^ 32` chunks
or more. In a message with more chunks than indices, the last chunk has the index of an earlier one,
so that the receiver takes the message to be complete with the first few chunks (`Split.wrap`); with
as many chunks as indices it does not come to an end.
-/

namespace Gossip

open Go Delivery

/-! ## Grouping the chunks by their ids -/

theorem id_of_mem_chunks {s : Split} {x : Bytes} (hx : x ∈ s.chunks) :
    (x.drop versionLen).take idLen = s.id.1 := by
  obtain ⟨i, p, -, rfl⟩ := Split.mem_chunks.1 hx
  simp [Split.chunk, chunkOf, header, versionLen, s.id.2]

theorem filter_flatMap_chunks {l : List Split} (hl : (l.map Split.id).Nodup) {s : Split}
    (hs : s ∈ l) :
    (l.flatMap Split.chunks).filter (fun x => (x.drop versionLen).take idLen = s.id.1) =
      s.chunks := by
  have hsame : s.chunks.filter (fun x => (x.drop versionLen).take idLen = s.id.1) = s.chunks :=
    List.filter_eq_self.2 fun x hx => decide_eq_true (id_of_mem_chunks hx)
  have hother : ∀ t : Split, t.id ≠ s.id →
      ∀ x ∈ t.chunks, ¬ decide ((x.drop versionLen).take idLen = s.id.1) = true := by
    intro t hts x hx heq
    exact hts (Subtype.ext ((id_of_mem_chunks hx).symm.trans (of_decide_eq_true heq)))
  induction l with
  | nil => cases hs
  | cons t l ih =>
    rw [List.map_cons, List.nodup_cons] at hl
    rw [List.flatMap_cons, List.filter_append]
    obtain rfl | hs := List.mem_cons.1 hs
    · have hrest : (l.flatMap Split.chunks).filter
          (fun x => (x.drop versionLen).take idLen = s.id.1) = [] := by
        refine List.filter_eq_nil_iff.2 fun x hx => ?_
        obtain ⟨t, ht, hxt⟩ := List.mem_flatMap.1 hx
        exact hother t (fun heq => hl.1 (heq ▸ List.mem_map_of_mem ht)) x hxt
      rw [hsame, hrest, List.append_nil]
    · have hne : t.id ≠ s.id := fun heq => hl.1 (heq ▸ List.mem_map_of_mem hs)
      rw [List.filter_eq_nil_iff.2 (hother t hne), List.nil_append, ih hl.2 hs]

theorem Split.disjoint_chunks {s t : Split} (h : s.id ≠ t.id) : s.chunks.Disjoint t.chunks :=
  fun _ hs ht => h (id_eq_of_mem_chunks hs ht)

/-! ## Messages with too many chunks -/

namespace Split

variable (s : Split)

/-- The index of the last chunk. -/
def lastIndex : Nat := s.init.length % 2 ^ 32

/-- The message that a receiver makes of the chunks up to the index of the last one. -/
def wrap : Split where
  id := s.id
  init := s.init.take s.lastIndex
  last := s.last
  pieces_ne p hp := by
    refine s.pieces_ne p ?_
    obtain hp | hp := List.mem_append.1 hp
    · exact List.mem_append_left _ (List.mem_of_mem_take hp)
    · exact List.mem_append_right _ hp

theorem length_wrap_init : s.wrap.init.length = s.lastIndex :=
  List.length_take_of_le (Nat.mod_le ..)

theorem wrap_chunks_subset : s.wrap.chunks ⊆ s.chunks := by
  intro x hx
  have hindex : UInt32.ofNat s.lastIndex = UInt32.ofNat s.init.length := by
    rw [← UInt32.toNat_inj]
    exact Nat.mod_mod ..
  have hinit : s.init = s.wrap.init ++ s.init.drop s.lastIndex := (List.take_append_drop ..).symm
  rw [chunks, List.mem_append, List.mem_singleton]
  obtain hx | hx := List.mem_append.1 hx
  · rw [hinit, cutChunks_append]
    exact .inl (List.mem_append_left _ hx)
  · rw [List.mem_singleton, length_wrap_init, chunkOf, hindex] at hx
    exact .inr hx

theorem wrap_msg_ne (h : 2 ^ 32 ≤ s.init.length) : s.wrap.msg ≠ s.msg := by
  have hlt : s.lastIndex < s.init.length := (Nat.mod_lt _ (by decide)).trans_le h
  have hpiece : s.init[s.lastIndex] ≠ [] :=
    s.pieces_ne _ (List.mem_append_left _ (List.getElem_mem hlt))
  have hpos := List.length_pos_iff.2 hpiece
  have hinit : s.init = s.wrap.init ++ s.init.drop s.lastIndex := (List.take_append_drop ..).symm
  intro heq
  have hlen := congrArg List.length heq
  rw [msg, msg, pieces, pieces, hinit, List.drop_eq_getElem_cons hlt] at hlen
  simp only [List.flatten_append, List.flatten_cons, List.length_append] at hlen
  have hlast : s.wrap.last = s.last := rfl
  rw [hlast] at hlen
  omega

end Split

/-! ## What the broadcasters sent -/

section

variable {β : Type} {idFunc : β → Nat → Except Err MsgID} {ops : β → List Op}

/-- The broadcasters split their messages as in `done`. -/
def SplitsInto (idFunc : β → Nat → Except Err MsgID) (ops : β → List Op) (done : β → List Split) :
    Prop :=
  ∀ b, (broadcast idFunc ops b).state.Inv (idFunc b) (queued (ops b))
    (broadcast idFunc ops b).chunks (broadcast idFunc ops b).cuts (done b) []

theorem AllSent.splitsInto (h : AllSent idFunc ops) : ∃ done, SplitsInto idFunc ops done := by
  have hsplit : ∀ b, ∃ done, (broadcast idFunc ops b).state.Inv (idFunc b) (queued (ops b))
      (broadcast idFunc ops b).chunks (broadcast idFunc ops b).cuts done [] := by
    intro b
    have hinit : Broadcaster.Inv (idFunc b) {} [] [] [] [] [] :=
      ⟨rfl, rfl, rfl, fun _ => rfl, fun _ hp => absurd hp List.not_mem_nil,
        fun hne => absurd rfl hne, fun _ hm => absurd hm List.not_mem_nil,
        ⟨[], List.Pairwise.nil, fun _ hn => absurd hn List.not_mem_nil, rfl⟩, by simp⟩
    have hgood : Broadcaster.Good (idFunc b) {} [] [] [] := ⟨[], [], hinit⟩
    obtain ⟨done, cur, hinv⟩ := hgood.run (h.valid b)
    obtain rfl := hinv.idle (h.currentMsg b)
    exact ⟨done, hinv⟩
  choose done hinv using hsplit
  exact ⟨done, hinv⟩

namespace SplitsInto

variable {done : β → List Split}

theorem started_eq (hd : SplitsInto idFunc ops done) (h : AllSent idFunc ops) (b : β) :
    (broadcast idFunc ops b).state.started = (done b).map fun s => (s.id, s.msg) := by
  rw [(hd b).started, Broadcaster.current, if_pos (h.currentMsg b), List.append_nil]

theorem chunks_eq (hd : SplitsInto idFunc ops done) (b : β) :
    (broadcast idFunc ops b).chunks = (done b).flatMap Split.chunks := by
  rw [(hd b).chunks, cutChunks, List.append_nil]

theorem call_of_mem (hd : SplitsInto idFunc ops done) (h : AllSent idFunc ops) {b : β} {s : Split}
    (hs : s ∈ done b) :
    ∃ n, n < (broadcast idFunc ops b).state.idCalls ∧ idFunc b n = .ok s.id := by
  obtain ⟨calls, -, hcalls, heq⟩ := (hd b).ids
  have hmem : Except.ok s.id ∈ calls.map (idFunc b) := by
    rw [heq, hd.started_eq h, List.map_map]
    exact List.mem_map_of_mem hs
  obtain ⟨n, hn, hid⟩ := List.mem_map.1 hmem
  exact ⟨n, hcalls n hn, hid⟩

theorem nodup_ids (hd : SplitsInto idFunc ops done) (h : AllSent idFunc ops) (b : β) :
    ((done b).map Split.id).Nodup := by
  obtain ⟨calls, hlt, hcalls, heq⟩ := (hd b).ids
  have hok : ∀ n ∈ calls, ∃ id, idFunc b n = .ok id := by
    intro n hn
    obtain ⟨e, -, he⟩ := List.mem_map.1 (heq ▸ List.mem_map_of_mem (f := idFunc b) hn)
    exact ⟨e.1, he.symm⟩
  have hnodup : (calls.map (idFunc b)).Nodup := by
    refine List.pairwise_map.2 (hlt.imp_of_mem fun {n n'} hn hn' hnn' heq' => ?_)
    obtain ⟨id, hid⟩ := hok n hn
    exact hnn'.ne (h.ids b n b n' id (hcalls n hn) (hcalls n' hn') hid (heq' ▸ hid)).2
  rw [heq, hd.started_eq h, List.map_map] at hnodup
  refine List.Nodup.of_map (Except.ok : MsgID → Except Err MsgID) ?_
  rwa [List.map_map]

theorem injOn_id (hd : SplitsInto idFunc ops done) (h : AllSent idFunc ops) :
    Set.InjOn Split.id { s | ∃ b, s ∈ done b } := by
  rintro s ⟨b, hs⟩ t ⟨b', ht⟩ hid
  obtain ⟨n, hn, hns⟩ := hd.call_of_mem h hs
  obtain ⟨n', hn', hnt⟩ := hd.call_of_mem h ht
  obtain ⟨rfl, rfl⟩ := h.ids b n b' n' _ hn hn' hns (hid ▸ hnt)
  exact List.inj_on_of_nodup_map (hd.nodup_ids h b) hs ht hid

theorem sent_eq (hd : SplitsInto idFunc ops done) (h : AllSent idFunc ops) (b : β) :
    sent idFunc ops b = (done b).map fun s => (s.msg, s.chunks) := by
  rw [sent, hd.started_eq h, hd.chunks_eq, List.map_map]
  refine List.map_congr_left fun s hs => ?_
  rw [Function.comp, filter_flatMap_chunks (hd.nodup_ids h b) hs]

theorem mem_sent (hd : SplitsInto idFunc ops done) (h : AllSent idFunc ops) {b : β}
    {m : Bytes × List Bytes} : m ∈ sent idFunc ops b ↔ ∃ s ∈ done b, (s.msg, s.chunks) = m := by
  rw [hd.sent_eq h, List.mem_map]

theorem isSplit (hd : SplitsInto idFunc ops done) (h : AllSent idFunc ops) :
    IsSplit idFunc ops where
  queued b := by
    rw [hd.sent_eq h, (hd b).queued, hd.started_eq h, h.backlog b]
    simp
  chunks b := by rw [hd.sent_eq h, hd.chunks_eq, List.flatMap_map]
  nonempty b m hm := by
    obtain ⟨s, -, rfl⟩ := (hd.mem_sent h).1 hm
    exact s.chunks_ne_nil
  disjoint b := by
    rw [hd.sent_eq h]
    exact List.pairwise_map.2 ((List.pairwise_map.1 (hd.nodup_ids h b)).imp
      fun hst => Split.disjoint_chunks hst)
  others b b' hbb' m hm m' hm' := by
    obtain ⟨s, hs, rfl⟩ := (hd.mem_sent h).1 hm
    obtain ⟨t, ht, rfl⟩ := (hd.mem_sent h).1 hm'
    refine Split.disjoint_chunks fun hid => hbb' ?_
    obtain ⟨n, hn, hns⟩ := hd.call_of_mem h hs
    obtain ⟨n', hn', hnt⟩ := hd.call_of_mem h ht
    exact (h.ids b n b' n' _ hn hn' hns (hid ▸ hnt)).1

theorem long_iff (hd : SplitsInto idFunc ops done) (b : β) :
    (∃ c ∈ (broadcast idFunc ops b).cuts, c.currentIndex = maxIndex) ↔
      ∃ s ∈ done b, 2 ^ 32 ≤ s.pieces.length := by
  rw [(hd b).long, or_iff_left (by simp)]

/-- If no message has too many chunks, every delivery gives the messages. -/
theorem reassembled (hd : SplitsInto idFunc ops done) (h : AllSent idFunc ops)
    (hshort : ∀ b, ∀ s ∈ done b, s.pieces.length < 2 ^ 32) {D : List Bytes}
    (hD : ∀ x ∈ D, ∃ b, x ∈ (broadcast idFunc ops b).chunks) :
    ∃ r results, Receiver.receiveAll {} D = some (r, results) ∧
      Reassembled idFunc ops D results := by
  have hempty : Receiver.Collected { s | ∃ b, s ∈ done b } {} [] := fun s _ => Holds.empty s
  have hmem : ∀ x ∈ D, ∃ s ∈ { s | ∃ b, s ∈ done b }, x ∈ s.chunks := by
    intro x hx
    obtain ⟨b, hb⟩ := hD x hx
    rw [hd.chunks_eq] at hb
    obtain ⟨s, hs, hxs⟩ := List.mem_flatMap.1 hb
    exact ⟨s, ⟨b, hs⟩, hxs⟩
  obtain ⟨r, results, hall, hlen, hresults⟩ := hempty.receiveAll (hd.injOn_id h)
    (fun s ⟨b, hs⟩ => hshort b s hs) hmem
  refine ⟨r, results, hall, hlen, fun b m hm hsub => ?_, fun i x hx b m hm hc => ?_,
    fun i x hx hnot => ?_⟩
  · obtain ⟨s, -, rfl⟩ := (hd.mem_sent h).1 hm
    exact existsUnique_completes s.chunks_ne_nil hsub
  · obtain ⟨s, hs, rfl⟩ := (hd.mem_sent h).1 hm
    rw [hresults i x hx s ⟨b, hs⟩ hc.mem, List.nil_append, if_pos hc]
  · obtain ⟨s, ⟨b, hs⟩, hxs⟩ := hmem x (List.mem_of_getElem? hx)
    rw [hresults i x hx s ⟨b, hs⟩ hxs, List.nil_append,
      if_neg (hnot b _ ((hd.mem_sent h).2 ⟨s, hs, rfl⟩))]

/-- The chunks of a message with too many of them give something else, or no result. -/
theorem not_reassembled (hd : SplitsInto idFunc ops done) (h : AllSent idFunc ops) {b : β}
    {s : Split} (hs : s ∈ done b) (hlong : 2 ^ 32 ≤ s.pieces.length)
    {r : Receiver} {results : List (Except Err (Option Bytes))}
    (hall : Receiver.receiveAll {} s.wrap.chunks = some (r, results)) :
    ¬ Reassembled idFunc ops s.wrap.chunks results := by
  have hlen := s.wrap.length_pieces
  rw [Split.length_wrap_init] at hlen
  have hindex : s.lastIndex < 2 ^ 32 := Nat.mod_lt _ (by decide)
  intro hre
  by_cases hfull : s.lastIndex + 1 = 2 ^ 32
  · rw [Receiver.receiveAll_eq_none (hlen.trans hfull)] at hall
    cases hall
  · -- the receiver returns the first pieces with the last one
    have hshort : s.wrap.pieces.length < 2 ^ 32 := by omega
    have hempty : Receiver.Collected {s.wrap} {} [] := fun t _ => Holds.empty t
    obtain ⟨r', results', hall', -, hresults⟩ := hempty.receiveAll (Set.injOn_singleton ..)
      (fun t ht => ht ▸ hshort) (fun x hx => ⟨s.wrap, rfl, hx⟩)
    obtain ⟨rfl, rfl⟩ := Prod.mk.inj (Option.some.inj (hall.symm.trans hall'))
    obtain ⟨i, ⟨x, hx, hc⟩, -⟩ := existsUnique_completes s.wrap.chunks_ne_nil
      (List.Subset.refl s.wrap.chunks)
    have hresult := hresults i x hx s.wrap rfl hc.mem
    rw [List.nil_append, if_pos hc] at hresult
    by_cases hex : ∃ b', ∃ m ∈ sent idFunc ops b', Completes m.2 (s.wrap.chunks.take i) x
    · obtain ⟨b', m, hm, hcm⟩ := hex
      have hmsg := hre.message i x hx b' m hm hcm
      obtain ⟨t, ht, rfl⟩ := (hd.mem_sent h).1 hm
      obtain rfl := hd.injOn_id h ⟨b, hs⟩ ⟨b', ht⟩
        (Split.id_eq_of_mem_chunks (s.wrap_chunks_subset hc.mem) hcm.mem)
      rw [hresult, Option.some.injEq, Except.ok.injEq, Option.some.injEq] at hmsg
      refine s.wrap_msg_ne ?_ hmsg
      rw [Split.length_pieces] at hlong
      by_contra hlt
      have hmod : s.lastIndex = s.init.length := Nat.mod_eq_of_lt (by omega)
      omega
    · have hnothing := hre.nothing i x hx fun b' m hm hcm => hex ⟨b', m, hm, hcm⟩
      rw [hresult] at hnothing
      cases hnothing

end SplitsInto

theorem AllSent.not_lossless (h : AllSent idFunc ops) {b : β} {c : Broadcaster}
    (hc : c ∈ (broadcast idFunc ops b).cuts) (hmax : c.currentIndex = maxIndex) :
    ¬ Lossless idFunc ops := by
  rintro ⟨-, hdeliver⟩
  obtain ⟨done, hd⟩ := h.splitsInto
  obtain ⟨s, hs, hlong⟩ := (hd.long_iff b).1 ⟨c, hc, hmax⟩
  have hD : ∀ x ∈ s.wrap.chunks, ∃ b, x ∈ (broadcast idFunc ops b).chunks := by
    intro x hx
    refine ⟨b, ?_⟩
    rw [hd.chunks_eq]
    exact List.mem_flatMap.2 ⟨s, hs, s.wrap_chunks_subset hx⟩
  obtain ⟨r, results, hall, hre⟩ := hdeliver s.wrap.chunks hD
  exact hd.not_reassembled h hs hlong hall hre

theorem gossip_lossless_iff {β : Type} (idFunc : β → Nat → Except Err MsgID) (ops : β → List Op)
    (h : AllSent idFunc ops) :
    Lossless idFunc ops ↔
      ∀ b, ∀ c ∈ (broadcast idFunc ops b).cuts, c.currentIndex ≠ maxIndex := by
  constructor
  · intro hlossless b c hc hmax
    exact h.not_lossless hc hmax hlossless
  · intro hcuts
    obtain ⟨done, hd⟩ := h.splitsInto
    refine ⟨hd.isSplit h, fun D hD => hd.reassembled h (fun b s hs => ?_) hD⟩
    by_contra hlong
    obtain ⟨c, hc, hmax⟩ := (hd.long_iff b).2 ⟨s, hs, not_lt.1 hlong⟩
    exact hcuts b c hc hmax

end

/-! ## Messages cut into single bytes

A budget of one byte more than a header makes chunks of one byte. -/

section

variable {idFunc : Nat → Except Err MsgID}

/-- A message of `n + 1` bytes, and a call for each of them. -/
def byteByByte (n : Nat) : List Op :=
  .message (List.replicate (n + 1) 7) :: List.replicate (n + 1) (.chunks 0 (headerLen + 1))

theorem length_messageChunk_one {c : Broadcaster} (hmsg : c.currentMsg ≠ []) :
    (c.messageChunk 1).2.length = headerLen + 1 := by
  have hpos := List.length_pos_iff.2 hmsg
  simp only [Broadcaster.messageChunk, List.length_append, length_header, List.length_take]
  split <;> omega

theorem chunks_one {c c' : Broadcaster} (hready : c.ready idFunc = (c', true))
    (hmsg : c'.currentMsg ≠ []) :
    c.chunks idFunc 0 (headerLen + 1) =
      { state := (c'.messageChunk 1).1, chunks := [(c'.messageChunk 1).2], cuts := [c'] } := by
  have hmax : int64 (headerLen + 1 - 0 - 0 - headerLen) = 1 := by decide
  have htotal : int64 (0 + (0 + (headerLen + 1 : Nat))) = headerLen + 1 := by decide
  rw [Broadcaster.chunks, Broadcaster.chunksLoop, if_pos (by decide)]
  split
  · next heq =>
    rw [hready] at heq
    cases heq
  · next heq =>
    rw [hready] at heq
    cases heq
    simp only [hmax, length_messageChunk_one hmsg, htotal]
    rw [dif_neg (by decide), Broadcaster.chunksLoop, if_neg (by decide)]

/-- What the calls make of a message of `n + 1` bytes from the state `c` on: they send it, with the
indices counted modulo `2 ^ 32`. -/
structure SentByBytes (c : Broadcaster) (n : Nat) (r : Chunked) : Prop where
  currentMsg : r.state.currentMsg = []
  backlog : r.state.backlog = c.backlog
  idCalls : r.state.idCalls = c.idCalls
  last : header c.currentMsgID (c.currentIndex + UInt32.ofNat n) finalChunk ++ [7] ∈ r.chunks
  indices : r.cuts.map Broadcaster.currentIndex =
    (List.range (n + 1)).map fun k => c.currentIndex + UInt32.ofNat k

theorem run_byteByByte {n : Nat} {c c' : Broadcaster} (hready : c.ready idFunc = (c', true))
    (hmsg : c'.currentMsg = List.replicate (n + 1) 7) :
    SentByBytes c' n (c.run idFunc (List.replicate (n + 1) (.chunks 0 (headerLen + 1)))) := by
  induction n generalizing c c' with
  | zero =>
    have hcut : c'.messageChunk 1 =
        ({ c' with currentMsg := [], currentIndex := c'.currentIndex + 1 },
          header c'.currentMsgID c'.currentIndex finalChunk ++ [7]) := by
      simp [Broadcaster.messageChunk, hmsg]
    rw [List.replicate_succ, Broadcaster.run, chunks_one hready (by simp [hmsg]), hcut]
    exact ⟨rfl, rfl, rfl, by simp, by simp [Broadcaster.run]⟩
  | succ n ih =>
    have hcut : (c'.messageChunk 1).1 = { c' with
        currentMsg := List.replicate (n + 1) 7, currentIndex := c'.currentIndex + 1 } := by
      have hfits : ¬ ((n + 1 + 1 : Nat) : Int) ≤ 1 := by omega
      simp only [Broadcaster.messageChunk, hmsg, List.length_replicate, hfits, if_false]
      rfl
    have hrest := @ih (c'.messageChunk 1).1 (c'.messageChunk 1).1 (by rw [hcut]; rfl) (by rw [hcut])
    have hsucc : ∀ k, c'.currentIndex + 1 + UInt32.ofNat k =
        c'.currentIndex + UInt32.ofNat (k + 1) := by
      intro k
      rw [UInt32.ofNat_add, UInt32.add_assoc, UInt32.add_comm 1]
      rfl
    rw [List.replicate_succ, Broadcaster.run, chunks_one hready (by simp [hmsg])]
    refine ⟨hrest.currentMsg, hrest.backlog, hrest.idCalls, ?_, ?_⟩
    · rw [← hsucc n]
      exact List.mem_cons_of_mem _ hrest.last
    · rw [List.range_succ_eq_map, List.map_cons, List.map_map]
      refine List.cons_eq_cons.2 ⟨by simp, hrest.indices.trans (List.map_congr_left fun k _ => ?_)⟩
      exact hsucc k

theorem allSent_byteByByte (id : MsgID) (n : Nat) :
    AllSent (fun (_ : Unit) _ => .ok id) (fun _ => byteByByte n) ∧
      SentByBytes ⟨[], id, 0, List.replicate (n + 1) 7, 1, [(id, List.replicate (n + 1) 7)]⟩ n
        (broadcast (fun _ _ => .ok id) (fun _ => byteByByte n) ()) := by
  have hsent : SentByBytes
      ⟨[], id, 0, List.replicate (n + 1) 7, 1, [(id, List.replicate (n + 1) 7)]⟩ n
      (broadcast (fun _ _ => .ok id) (fun _ => byteByByte n) ()) := run_byteByByte rfl rfl
  refine ⟨⟨fun _ op hop => ?_, fun _ => hsent.backlog, fun _ => hsent.currentMsg, ?_⟩, hsent⟩
  · obtain rfl | hop := List.mem_cons.1 hop
    · exact List.cons_ne_nil _ _
    · rw [List.eq_of_mem_replicate hop]
      exact Int.le_refl 0
  · rintro ⟨⟩ k ⟨⟩ k' - hk hk' - -
    rw [hsent.idCalls] at hk hk'
    exact ⟨rfl, (Nat.lt_one_iff.1 hk).trans (Nat.lt_one_iff.1 hk').symm⟩

end

theorem queued_byteByByte (n : Nat) : queued (byteByByte n) = [List.replicate (n + 1) 7] := by
  have hchunks : ∀ k, queued (List.replicate k (.chunks 0 (headerLen + 1))) = [] := by
    intro k
    induction k with
    | zero => rfl
    | succ k ih => rwa [List.replicate_succ, queued]
  rw [byteByByte, queued, hchunks]

/-- The id that the broadcaster has in the examples. -/
def exampleID : MsgID := ⟨List.replicate idLen version, rfl⟩

theorem gossip_wraps :
    AllSent (fun (_ : Unit) _ => .ok exampleID) (fun _ => byteByByte (2 ^ 32)) ∧
      queued (byteByByte (2 ^ 32)) = [List.replicate (2 ^ 32 + 1) 7] ∧
      header exampleID 0 finalChunk ++ [7] ∈
        (broadcast (fun (_ : Unit) _ => .ok exampleID) (fun _ => byteByByte (2 ^ 32)) ()).chunks ∧
      (Receiver.receiveAll {} [header exampleID 0 finalChunk ++ [7]]).map Prod.snd =
        some [.ok (some [7])] ∧
      ¬ Lossless (fun (_ : Unit) _ => .ok exampleID) (fun _ => byteByByte (2 ^ 32)) := by
  obtain ⟨hall, hsent⟩ := allSent_byteByByte exampleID (2 ^ 32)
  have hmem : maxIndex ∈ (List.range (2 ^ 32 + 1)).map fun k => 0 + UInt32.ofNat k :=
    List.mem_map.2 ⟨2 ^ 32 - 1, List.mem_range.2 (by decide), rfl⟩
  rw [← hsent.indices] at hmem
  obtain ⟨c, hc, hindex⟩ := List.mem_map.1 hmem
  exact ⟨hall, queued_byteByByte _, hsent.last, by decide, hall.not_lossless hc hindex⟩

theorem gossip_lossless_three :
    AllSent (fun (_ : Unit) _ => .ok exampleID) (fun _ => byteByByte 2) ∧
      Lossless (fun (_ : Unit) _ => .ok exampleID) (fun _ => byteByByte 2) := by
  obtain ⟨hall, hsent⟩ := allSent_byteByByte exampleID 2
  refine ⟨hall, (gossip_lossless_iff _ _ hall).2 fun _ c hc hmax => ?_⟩
  have hmem := List.mem_map_of_mem (f := Broadcaster.currentIndex) hc
  rw [hsent.indices, hmax] at hmem
  revert hmem
  decide

end Gossip
