import OpenPCC.Gossip.Proof.Chunks
import OpenPCC.Gossip.Receiver

/-!
# What a receiver returns

A receiver has, of every message, exactly the pieces whose chunks were delivered (`Holds`). So it
returns a message with the chunk that completes it and nothing otherwise, in whatever order the
chunks of all messages come and however often.
-/

namespace Gossip

open Go Delivery

/-! ## Reading a chunk -/

theorem parseChunk_chunkOf (id : MsgID) (i : Nat) (final : UInt8) {piece : Bytes}
    (hpiece : piece ≠ []) :
    parseChunk (chunkOf id i final piece) = .ok ⟨id.1, UInt32.ofNat i, final, piece⟩ := by
  have hlen := List.length_pos_iff.2 hpiece
  have hlong : ¬ (chunkOf id i final piece).length ≤ headerLen := by
    rw [chunkOf, List.length_append, length_header]
    omega
  rw [parseChunk, if_neg hlong, if_neg (by simp [chunkOf, header])]
  rw [Except.ok.injEq, Chunk.mk.injEq]
  refine ⟨?_, ?_, ?_, List.drop_left' (length_header ..)⟩
  · simp [chunkOf, header, versionLen, id.2]
  · have hdrop : (chunkOf id i final piece).drop (idLen + versionLen) =
        BigEndian.putUint32 (UInt32.ofNat i) ++ ([final] ++ piece) := by
      simp [chunkOf, header, versionLen, List.drop_left' id.2]
    have htake : (BigEndian.putUint32 (UInt32.ofNat i) ++ ([final] ++ piece)).take indexLen =
        BigEndian.putUint32 (UInt32.ofNat i) := List.take_left' (BigEndian.length_putUint32 _)
    rw [hdrop, htake, BigEndian.uint32_putUint32]
  · have hdrop : (chunkOf id i final piece).drop (idLen + versionLen + indexLen) =
        final :: piece := by
      rw [chunkOf, header, List.append_assoc, List.drop_left' (by
        simp [id.2, versionLen, BigEndian.length_putUint32, indexLen])]
      rfl
    rw [hdrop, List.headD_cons]

theorem ofNat_inj {i j : Nat} (hi : i < 2 ^ 32) (hj : j < 2 ^ 32)
    (h : UInt32.ofNat i = UInt32.ofNat j) : i = j := by
  have htoNat := congrArg UInt32.toNat h
  rwa [UInt32.toNat_ofNat_of_lt' hi, UInt32.toNat_ofNat_of_lt' hj] at htoNat

theorem ofNat_le_ofNat {i j : Nat} (hi : i < 2 ^ 32) (hj : j < 2 ^ 32) :
    UInt32.ofNat i ≤ UInt32.ofNat j ↔ i ≤ j := by
  rw [UInt32.le_iff_toNat_le, UInt32.toNat_ofNat_of_lt' hi, UInt32.toNat_ofNat_of_lt' hj]

/-! ## The chunks of a message -/

theorem mem_cutChunks {id : MsgID} {k : Nat} {ps : List Bytes} {x : Bytes} :
    x ∈ cutChunks id k ps ↔ ∃ i p, ps[i]? = some p ∧ x = chunkOf id (k + i) 0 p := by
  induction ps generalizing k with
  | nil => simp [cutChunks]
  | cons p ps ih =>
    rw [cutChunks, List.mem_cons, ih]
    constructor
    · rintro (rfl | ⟨i, q, hq, rfl⟩)
      · exact ⟨0, p, rfl, rfl⟩
      · exact ⟨i + 1, q, hq, by rw [Nat.add_right_comm, Nat.add_assoc]⟩
    · rintro ⟨i, q, hq, rfl⟩
      cases i with
      | zero =>
        cases hq
        exact .inl rfl
      | succ i => exact .inr ⟨i, q, hq, by rw [Nat.add_right_comm, Nat.add_assoc]⟩

namespace Split

variable {s t : Split} {i j : Nat} {p q : Bytes}

theorem length_pieces (s : Split) : s.pieces.length = s.init.length + 1 := by
  rw [pieces, List.length_append, List.length_singleton]

/-- The chunk of the `i`-th piece `p`. -/
def chunk (s : Split) (i : Nat) (p : Bytes) : Bytes :=
  chunkOf s.id i (if i = s.init.length then finalChunk else 0) p

theorem mem_chunks {x : Bytes} :
    x ∈ s.chunks ↔ ∃ i p, s.pieces[i]? = some p ∧ x = s.chunk i p := by
  rw [chunks, List.mem_append, mem_cutChunks, List.mem_singleton]
  constructor
  · rintro (⟨i, p, hp, rfl⟩ | rfl)
    · have hi := (List.getElem?_eq_some_iff.1 hp).1
      refine ⟨i, p, ?_, ?_⟩
      · rw [pieces, List.getElem?_append_left hi, hp]
      · rw [chunk, if_neg hi.ne, Nat.zero_add]
    · exact ⟨s.init.length, s.last, List.getElem?_concat_length, by rw [chunk, if_pos rfl]⟩
  · rintro ⟨i, p, hp, rfl⟩
    have hi := (List.getElem?_eq_some_iff.1 hp).1
    rw [length_pieces] at hi
    obtain hlt | rfl := Nat.lt_succ_iff_lt_or_eq.1 hi
    · rw [pieces, List.getElem?_append_left hlt] at hp
      exact .inl ⟨i, p, hp, by rw [chunk, if_neg hlt.ne, Nat.zero_add]⟩
    · rw [pieces, List.getElem?_concat_length, Option.some.injEq] at hp
      exact .inr (by rw [chunk, if_pos rfl, hp])

theorem chunk_mem (hp : s.pieces[i]? = some p) : s.chunk i p ∈ s.chunks :=
  mem_chunks.2 ⟨i, p, hp, rfl⟩

theorem parseChunk_chunk (hp : s.pieces[i]? = some p) :
    parseChunk (s.chunk i p) =
      .ok ⟨s.id.1, UInt32.ofNat i, if i = s.init.length then finalChunk else 0, p⟩ :=
  parseChunk_chunkOf _ _ _ (s.pieces_ne p (List.mem_of_getElem? hp))

theorem id_eq_of_mem_chunks {x : Bytes} (hs : x ∈ s.chunks) (ht : x ∈ t.chunks) : s.id = t.id := by
  obtain ⟨i, p, hp, rfl⟩ := mem_chunks.1 hs
  obtain ⟨j, q, hq, heq⟩ := mem_chunks.1 ht
  have hparse := s.parseChunk_chunk hp
  rw [heq, t.parseChunk_chunk hq, Except.ok.injEq, Chunk.mk.injEq] at hparse
  exact Subtype.ext hparse.1.symm

theorem chunk_inj (hlen : s.pieces.length ≤ 2 ^ 32) (hp : s.pieces[i]? = some p)
    (hq : s.pieces[j]? = some q) (h : s.chunk i p = s.chunk j q) : i = j := by
  have hparse := s.parseChunk_chunk hp
  rw [h, s.parseChunk_chunk hq, Except.ok.injEq, Chunk.mk.injEq] at hparse
  have hi := (List.getElem?_eq_some_iff.1 hp).1
  have hj := (List.getElem?_eq_some_iff.1 hq).1
  exact (ofNat_inj (by omega) (by omega) hparse.2.1).symm

theorem chunks_ne_nil (s : Split) : s.chunks ≠ [] := by
  simp [chunks]

end Split

/-! ## The loops over the indices -/

namespace ChunkedMsg

variable {m : ChunkedMsg} {last : Nat}

theorem completeFrom_eq (hlast : last + 1 < 2 ^ 32) {n i : Nat} (hn : last + 1 < i + n)
    (hi : i ≤ last + 1) :
    m.completeFrom (UInt32.ofNat last) n (UInt32.ofNat i) =
      some (decide (∀ j, i ≤ j → j ≤ last → (m.chunks.lookup (UInt32.ofNat j)).isSome)) := by
  induction n generalizing i with
  | zero => omega
  | succ n ih =>
    rw [completeFrom]
    by_cases hle : i ≤ last
    · rw [if_pos ((ofNat_le_ofNat (by omega) (by omega)).2 hle)]
      split
      · next hsome =>
        have hrest := @ih (i + 1) (by omega) (by omega)
        rw [UInt32.ofNat_add] at hrest
        refine hrest.trans (congrArg some (decide_eq_decide.2
          ⟨fun h j hij => ?_, fun h j hij => ?_⟩))
        · obtain hlt | rfl := hij.lt_or_eq
          · exact h j hlt
          · exact fun _ => hsome
        · exact h j (by omega)
      · next hnone =>
        have hfail : ¬ ∀ j, i ≤ j → j ≤ last → (m.chunks.lookup (UInt32.ofNat j)).isSome :=
          fun h => hnone (h i le_rfl hle)
        rw [decide_eq_false hfail]
    · rw [if_neg (fun h => hle ((ofNat_le_ofNat (by omega) (by omega)).1 h))]
      have hall : ∀ j, i ≤ j → j ≤ last → (m.chunks.lookup (UInt32.ofNat j)).isSome := by
        intro j hij hjl
        omega
      rw [decide_eq_true hall]

theorem bytesFrom_eq {pieces : List Bytes} (hlen : pieces.length = last + 1)
    (hlast : last + 1 < 2 ^ 32)
    (hm : ∀ i p, pieces[i]? = some p → m.chunks.lookup (UInt32.ofNat i) = some p) {n i : Nat}
    (hn : last + 1 < i + n) (hi : i ≤ last + 1) (out : Bytes) :
    m.bytesFrom (UInt32.ofNat last) n (UInt32.ofNat i) out =
      some (some (out ++ (pieces.drop i).flatten)) := by
  induction n generalizing i out with
  | zero => omega
  | succ n ih =>
    rw [bytesFrom]
    by_cases hle : i ≤ last
    · have hlt : i < pieces.length := by omega
      have hrest := @ih (i + 1) (by omega) (by omega) (out ++ pieces[i])
      rw [if_pos ((ofNat_le_ofNat (by omega) (by omega)).2 hle),
        hm i _ (List.getElem?_eq_getElem hlt)]
      rw [UInt32.ofNat_add] at hrest
      refine hrest.trans ?_
      rw [List.drop_eq_getElem_cons hlt, List.flatten_cons, List.append_assoc]
    · rw [if_neg (fun h => hle ((ofNat_le_ofNat (by omega) (by omega)).1 h)),
        List.drop_of_length_le (by omega), List.flatten_nil, List.append_nil]

end ChunkedMsg

/-! ## What a receiver has of a message -/

/-- Of the message `s`, the pieces are there whose chunks are among `D`. -/
structure Holds (m : ChunkedMsg) (s : Split) (D : List Bytes) : Prop where
  chunks : ∀ i p, s.pieces[i]? = some p →
    m.chunks.lookup (UInt32.ofNat i) = if s.chunk i p ∈ D then some p else none
  final : m.finalIndex =
    if s.chunk s.init.length s.last ∈ D then some (UInt32.ofNat s.init.length) else none

namespace Holds

variable {m : ChunkedMsg} {s : Split} {D D' : List Bytes}

theorem congr (h : Holds m s D) (hD : ∀ x ∈ s.chunks, x ∈ D' ↔ x ∈ D) : Holds m s D' where
  chunks i p hp := by
    rw [h.chunks i p hp]
    simp only [hD _ (Split.chunk_mem hp)]
  final := by
    rw [h.final]
    simp only [hD _ (Split.chunk_mem List.getElem?_concat_length)]

theorem empty (s : Split) : Holds {} s [] where
  chunks _ _ _ := rfl
  final := rfl

theorem add (h : Holds m s D) (hlen : s.pieces.length ≤ 2 ^ 32) {i : Nat} {p : Bytes}
    (hp : s.pieces[i]? = some p) :
    Holds (m.add ⟨s.id.1, UInt32.ofNat i, if i = s.init.length then finalChunk else 0, p⟩) s
      (D ++ [s.chunk i p]) where
  chunks j q hq := by
    by_cases hij : j = i
    · subst hij
      obtain rfl := Option.some.inj (hp.symm.trans hq)
      rw [ChunkedMsg.add, AList.lookup_insert, if_pos (List.mem_append_right _ List.mem_cons_self)]
    · have hi := (List.getElem?_eq_some_iff.1 hp).1
      have hj := (List.getElem?_eq_some_iff.1 hq).1
      have hne : UInt32.ofNat j ≠ UInt32.ofNat i := fun heq =>
        hij (ofNat_inj (by omega) (by omega) heq)
      have hmem : s.chunk j q ∈ D ++ [s.chunk i p] ↔ s.chunk j q ∈ D := by
        rw [List.mem_append, List.mem_singleton, or_iff_left]
        exact fun heq => hij (Split.chunk_inj hlen hq hp heq)
      rw [ChunkedMsg.add, AList.lookup_insert_ne hne, h.chunks j q hq]
      simp only [hmem]
  final := by
    have hlast : s.pieces[s.init.length]? = some s.last := List.getElem?_concat_length
    rw [ChunkedMsg.add]
    by_cases hi : i = s.init.length
    · subst hi
      obtain rfl := Option.some.inj (hp.symm.trans hlast)
      rw [if_pos rfl, if_pos rfl, if_pos (List.mem_append_right _ List.mem_cons_self)]
    · have hmem : s.chunk s.init.length s.last ∈ D ++ [s.chunk i p] ↔
          s.chunk s.init.length s.last ∈ D := by
        rw [List.mem_append, List.mem_singleton, or_iff_left]
        exact fun heq => hi (Split.chunk_inj hlen hlast hp heq).symm
      have hmark : (0 : UInt8) ≠ finalChunk := by decide
      rw [if_neg hi, if_neg hmark, h.final]
      simp only [hmem]

theorem isComplete_of_not_mem (h : Holds m s D) (hmem : s.chunk s.init.length s.last ∉ D) :
    m.isComplete = some false := by
  rw [ChunkedMsg.isComplete, h.final, if_neg hmem]

theorem isComplete (h : Holds m s D) (hshort : s.pieces.length < 2 ^ 32) :
    m.isComplete = some (decide (s.chunks ⊆ D)) := by
  have hlast : s.pieces[s.init.length]? = some s.last := List.getElem?_concat_length
  by_cases hmem : s.chunk s.init.length s.last ∈ D
  · rw [Split.length_pieces] at hshort
    rw [ChunkedMsg.isComplete, h.final, if_pos hmem]
    refine (ChunkedMsg.completeFrom_eq hshort (i := 0) (by omega) (by omega)).trans
      (congrArg some (decide_eq_decide.2 ⟨fun hall x hx => ?_, fun hsub j _ hj => ?_⟩))
    · obtain ⟨i, p, hp, rfl⟩ := Split.mem_chunks.1 hx
      have hi := (List.getElem?_eq_some_iff.1 hp).1
      rw [Split.length_pieces] at hi
      have hsome := hall i (Nat.zero_le i) (by omega)
      rw [h.chunks i p hp] at hsome
      by_contra hnot
      simp [hnot] at hsome
    · have hlt : j < s.pieces.length := by
        rw [Split.length_pieces]
        omega
      have hp := List.getElem?_eq_getElem hlt
      rw [h.chunks j _ hp, if_pos (hsub (Split.chunk_mem hp))]
      rfl
  · have hnot : ¬ s.chunks ⊆ D := fun hsub => hmem (hsub (Split.chunk_mem hlast))
    rw [h.isComplete_of_not_mem hmem, decide_eq_false hnot]

theorem lookup_of_subset (h : Holds m s D) (hsub : s.chunks ⊆ D) {i : Nat} {p : Bytes}
    (hp : s.pieces[i]? = some p) : m.chunks.lookup (UInt32.ofNat i) = some p := by
  rw [h.chunks i p hp, if_pos (hsub (Split.chunk_mem hp))]

theorem bytes (h : Holds m s D) (hshort : s.pieces.length < 2 ^ 32) (hsub : s.chunks ⊆ D) :
    m.bytes = some (some s.msg) := by
  have hlast : s.pieces[s.init.length]? = some s.last := List.getElem?_concat_length
  have hlen := s.length_pieces
  rw [ChunkedMsg.bytes, h.final, if_pos (hsub (Split.chunk_mem hlast))]
  exact ChunkedMsg.bytesFrom_eq hlen (hlen ▸ hshort) (fun i p hp => h.lookup_of_subset hsub hp)
    (i := 0) (by omega) (by omega) []

end Holds

/-! ## Deliveries -/

namespace Receiver

variable {S : Set Split} {r : Receiver} {D : List Bytes} {s : Split} {i : Nat} {p : Bytes}

/-- The chunks `D` of the messages `S` were delivered. -/
def Collected (S : Set Split) (r : Receiver) (D : List Bytes) : Prop :=
  ∀ s ∈ S, Holds ((r.messages.lookup s.id.1).getD {}) s D

/-- The message `s` with its `i`-th piece stored. -/
def stored (r : Receiver) (s : Split) (i : Nat) (p : Bytes) : ChunkedMsg :=
  ((r.messages.lookup s.id.1).getD {}).add
    ⟨s.id.1, UInt32.ofNat i, if i = s.init.length then finalChunk else 0, p⟩

def store (r : Receiver) (s : Split) (i : Nat) (p : Bytes) : Receiver :=
  ⟨r.messages.insert s.id.1 (r.stored s i p)⟩

theorem receiveChunk_of_incomplete (hp : s.pieces[i]? = some p)
    (hm : ((r.messages.lookup s.id.1).getD {}).isComplete = some false) :
    r.receiveChunk (s.chunk i p) = (r.stored s i p).isComplete.bind fun complete =>
      if complete then (r.stored s i p).bytes.bind fun out => some (r.store s i p, .ok out)
      else some (r.store s i p, .ok none) := by
  rw [receiveChunk, Split.parseChunk_chunk hp]
  simp only [hm]
  rfl

theorem mem_append_chunk (hS : Set.InjOn Split.id S) (hs : s ∈ S) (hp : s.pieces[i]? = some p)
    {t : Split} (ht : t ∈ S) (hts : t ≠ s) {y : Bytes} (hy : y ∈ t.chunks) :
    y ∈ D ++ [s.chunk i p] ↔ y ∈ D := by
  rw [List.mem_append, List.mem_singleton, or_iff_left]
  rintro rfl
  exact hts (hS ht hs (Split.id_eq_of_mem_chunks hy (Split.chunk_mem hp)))

theorem Collected.store (hS : Set.InjOn Split.id S) (h : Collected S r D) (hs : s ∈ S)
    (hlen : s.pieces.length ≤ 2 ^ 32) (hp : s.pieces[i]? = some p) :
    Collected S (r.store s i p) (D ++ [s.chunk i p]) := by
  intro t ht
  by_cases hts : t = s
  · subst hts
    rw [Receiver.store, AList.lookup_insert, Option.getD_some]
    exact (h t ht).add hlen hp
  · have hid : t.id.1 ≠ s.id.1 := fun heq => hts (hS ht hs (Subtype.ext heq))
    rw [Receiver.store, AList.lookup_insert_ne hid]
    exact (h t ht).congr fun _ hy => mem_append_chunk hS hs hp ht hts hy

theorem Collected.receiveChunk (hS : Set.InjOn Split.id S) (h : Collected S r D) (hs : s ∈ S)
    (hshort : s.pieces.length < 2 ^ 32) {x : Bytes} (hx : x ∈ s.chunks) :
    ∃ r', r.receiveChunk x =
        some (r', .ok (if Completes s.chunks D x then some s.msg else none)) ∧
      Collected S r' (D ++ [x]) := by
  obtain ⟨i, p, hp, rfl⟩ := Split.mem_chunks.1 hx
  have hcomplete := (h s hs).isComplete hshort
  by_cases hknown : s.chunks ⊆ D
  · have hnot : ¬ Completes s.chunks D (s.chunk i p) := fun hc => hc.2 hknown
    rw [decide_eq_true hknown] at hcomplete
    refine ⟨r, ?_, fun t ht => (h t ht).congr fun y hy => ?_⟩
    · rw [Receiver.receiveChunk, Split.parseChunk_chunk hp, if_neg hnot]
      simp only [hcomplete]
      rfl
    · by_cases hts : t = s
      · subst hts
        exact ⟨fun _ => hknown hy, fun hmem => List.mem_append_left _ hmem⟩
      · exact mem_append_chunk hS hs hp ht hts hy
  · rw [decide_eq_false hknown] at hcomplete
    have hstore := h.store hS hs hshort.le hp
    have hadd : Holds (r.stored s i p) s (D ++ [s.chunk i p]) := (h s hs).add hshort.le hp
    refine ⟨r.store s i p, ?_, hstore⟩
    rw [receiveChunk_of_incomplete hp hcomplete, hadd.isComplete hshort]
    by_cases hsub : s.chunks ⊆ D ++ [s.chunk i p]
    · have hnow : Completes s.chunks D (s.chunk i p) := ⟨hsub, hknown⟩
      rw [if_pos hnow, decide_eq_true hsub, hadd.bytes hshort hsub]
      rfl
    · have hnot : ¬ Completes s.chunks D (s.chunk i p) := fun hc => hsub hc.1
      rw [if_neg hnot, decide_eq_false hsub]
      rfl

theorem Collected.receiveAll (hS : Set.InjOn Split.id S)
    (hshort : ∀ s ∈ S, s.pieces.length < 2 ^ 32) (h : Collected S r D) {xs : List Bytes}
    (hxs : ∀ x ∈ xs, ∃ s ∈ S, x ∈ s.chunks) :
    ∃ r' results, r.receiveAll xs = some (r', results) ∧ results.length = xs.length ∧
      ∀ (i : Nat) (x : Bytes), xs[i]? = some x → ∀ s ∈ S, x ∈ s.chunks → results[i]? =
        some (.ok (if Completes s.chunks (D ++ xs.take i) x then some s.msg else none)) := by
  induction xs generalizing r D with
  | nil => exact ⟨r, [], rfl, rfl, fun i x hx => by simp at hx⟩
  | cons y ys ih =>
    obtain ⟨⟨s, hs, hy⟩, hys⟩ := List.forall_mem_cons.1 hxs
    obtain ⟨r₁, hstep, h₁⟩ := h.receiveChunk hS hs (hshort s hs) hy
    obtain ⟨r₂, results, hrest, hlen, hresults⟩ := ih h₁ hys
    refine ⟨r₂, .ok (if Completes s.chunks D y then some s.msg else none) :: results, ?_,
      by rw [List.length_cons, hlen, List.length_cons], ?_⟩
    · rw [Receiver.receiveAll, hstep]
      simp only [Option.bind_eq_bind, Option.bind_some, hrest]
      rfl
    · intro i x hx t ht hxt
      cases i with
      | zero =>
        obtain rfl := Option.some.inj hx
        obtain rfl := hS ht hs (Split.id_eq_of_mem_chunks hxt hy)
        rw [List.take_zero, List.append_nil]
        rfl
      | succ i =>
        rw [List.getElem?_cons_succ, hresults i x hx t ht hxt, List.take_succ_cons,
          List.append_assoc, List.singleton_append]

/-! ## A message with as many pieces as indices

When the last piece is there, the loop over the indices does not end. -/

theorem completeFrom_maxIndex {m : ChunkedMsg} (hm : ∀ j, (m.chunks.lookup j).isSome) (n : Nat)
    (i : UInt32) : m.completeFrom maxIndex n i = none := by
  induction n generalizing i with
  | zero => rfl
  | succ n ih =>
    have hle : i ≤ maxIndex := UInt32.le_iff_toNat_le.2 (Nat.le_pred_of_lt i.toNat_lt)
    rw [ChunkedMsg.completeFrom, if_pos hle, if_pos (hm i)]
    exact ih (i + 1)

theorem isComplete_eq_none {m : ChunkedMsg} (h : Holds m s D) (hsub : s.chunks ⊆ D)
    (hlen : s.pieces.length = 2 ^ 32) : m.isComplete = none := by
  have hlast : s.pieces[s.init.length]? = some s.last := List.getElem?_concat_length
  have hinit : s.init.length = 2 ^ 32 - 1 := by
    rw [Split.length_pieces] at hlen
    omega
  rw [ChunkedMsg.isComplete, h.final, if_pos (hsub (Split.chunk_mem hlast)), hinit]
  refine completeFrom_maxIndex (fun j => ?_) _ _
  have hj : j.toNat < s.pieces.length := hlen ▸ j.toNat_lt
  have hlookup := h.lookup_of_subset hsub (List.getElem?_eq_getElem hj)
  rw [UInt32.ofNat_toNat] at hlookup
  rw [hlookup]
  rfl

theorem Collected.receiveAll_append (hlen : s.pieces.length ≤ 2 ^ 32) (h : Collected {s} r D)
    (hlast : s.chunk s.init.length s.last ∉ D) {xs : List Bytes}
    (hxs : ∀ x ∈ xs, ∃ i p, s.pieces[i]? = some p ∧ i ≠ s.init.length ∧ x = s.chunk i p)
    (ys : List Bytes) :
    ∃ r', Collected {s} r' (D ++ xs) ∧ s.chunk s.init.length s.last ∉ D ++ xs ∧
      (r'.receiveAll ys = none → r.receiveAll (xs ++ ys) = none) := by
  induction xs generalizing r D with
  | nil => exact ⟨r, by rwa [List.append_nil], by rwa [List.append_nil], id⟩
  | cons x xs ih =>
    obtain ⟨⟨i, p, hp, hi, rfl⟩, hrest⟩ := List.forall_mem_cons.1 hxs
    have hstore := h.store (Set.injOn_singleton ..) rfl hlen hp
    have hlast' : s.chunk s.init.length s.last ∉ D ++ [s.chunk i p] := by
      rw [List.mem_append, List.mem_singleton, not_or]
      refine ⟨hlast, fun heq => hi ?_⟩
      exact (Split.chunk_inj hlen List.getElem?_concat_length hp heq).symm
    obtain ⟨r', hcollected, hmissing, hnone⟩ := ih hstore hlast' hrest
    rw [List.append_assoc] at hcollected hmissing
    refine ⟨r', hcollected, hmissing, fun hys => ?_⟩
    have hadd : Holds (r.stored s i p) s (D ++ [s.chunk i p]) := (h s rfl).add hlen hp
    rw [List.cons_append, Receiver.receiveAll,
      receiveChunk_of_incomplete hp ((h s rfl).isComplete_of_not_mem hlast),
      hadd.isComplete_of_not_mem hlast']
    simp only [Option.bind_eq_bind, Option.bind_some, Bool.false_eq_true, if_false, hnone hys]
    rfl

theorem receiveAll_eq_none (hlen : s.pieces.length = 2 ^ 32) : receiveAll {} s.chunks = none := by
  have hlast : s.pieces[s.init.length]? = some s.last := List.getElem?_concat_length
  have hempty : Collected {s} {} [] := fun t _ => Holds.empty t
  have hinit : ∀ x ∈ cutChunks s.id 0 s.init,
      ∃ i p, s.pieces[i]? = some p ∧ i ≠ s.init.length ∧ x = s.chunk i p := by
    intro x hx
    obtain ⟨i, p, hp, rfl⟩ := mem_cutChunks.1 hx
    have hi := (List.getElem?_eq_some_iff.1 hp).1
    refine ⟨i, p, ?_, hi.ne, ?_⟩
    · rw [Split.pieces, List.getElem?_append_left hi, hp]
    · rw [Split.chunk, if_neg hi.ne, Nat.zero_add]
  have hchunks : s.chunks = cutChunks s.id 0 s.init ++ [s.chunk s.init.length s.last] := by
    rw [Split.chunks, Split.chunk, if_pos rfl]
  obtain ⟨r, hcollected, hmissing, hnone⟩ := hempty.receiveAll_append hlen.le List.not_mem_nil hinit
    [s.chunk s.init.length s.last]
  rw [List.nil_append] at hcollected hmissing
  rw [hchunks]
  refine hnone ?_
  have hadd : Holds (r.stored s s.init.length s.last) s s.chunks :=
    hchunks ▸ (hcollected s rfl).add hlen.le hlast
  rw [Receiver.receiveAll,
    receiveChunk_of_incomplete hlast ((hcollected s rfl).isComplete_of_not_mem hmissing),
    isComplete_eq_none hadd (List.Subset.refl _) hlen]
  rfl

end Receiver

end Gossip
