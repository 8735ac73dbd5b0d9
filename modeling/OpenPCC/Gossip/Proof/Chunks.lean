import OpenPCC.Gossip.Broadcaster

/-!
# What a broadcaster sends

Every message is split into pieces that are not empty, and the chunks that are sent are the pieces
in order, each under the message's id and its index, the last one marked (`Split`). This is an
invariant of all calls (`Broadcaster.Inv`). The index is a `uint32`: it starts again at 0 in a
message that is cut at the largest one, that is, into `2 ^ 32` pieces or more.
-/

namespace Gossip

open Go

/-! ## Pieces and chunks -/

theorem length_header (id : MsgID) (index : UInt32) (final : UInt8) :
    (header id index final).length = headerLen := by
  simp [header, id.2, BigEndian.length_putUint32, headerLen, versionLen, indexLen, finalLen]
  omega

/-- The chunk with the `i`-th piece of a message. -/
def chunkOf (id : MsgID) (i : Nat) (final : UInt8) (piece : Bytes) : Bytes :=
  header id (UInt32.ofNat i) final ++ piece

/-- The chunks of pieces that are not the last one, from the `i`-th on. -/
def cutChunks (id : MsgID) : Nat → List Bytes → List Bytes
  | _, [] => []
  | i, p :: ps => chunkOf id i 0 p :: cutChunks id (i + 1) ps

theorem cutChunks_append (id : MsgID) (i : Nat) (ps qs : List Bytes) :
    cutChunks id i (ps ++ qs) = cutChunks id i ps ++ cutChunks id (i + ps.length) qs := by
  induction ps generalizing i with
  | nil => rfl
  | cons p ps ih =>
    rw [List.cons_append, cutChunks, ih, cutChunks, List.cons_append, List.length_cons,
      Nat.add_right_comm, Nat.add_assoc]

/-- A message that was split: its id and its pieces, with the last one apart. -/
structure Split where
  id : MsgID
  init : List Bytes
  last : Bytes
  pieces_ne : ∀ p ∈ init ++ [last], p ≠ []

namespace Split

variable (s : Split)

def pieces : List Bytes := s.init ++ [s.last]

def msg : Bytes := s.pieces.flatten

def chunks : List Bytes := cutChunks s.id 0 s.init ++ [chunkOf s.id s.init.length finalChunk s.last]

end Split

namespace Broadcaster

/-- The current message, of which the pieces `cur` were sent. -/
def current (c : Broadcaster) (cur : List Bytes) : List (MsgID × Bytes) :=
  if c.currentMsg = [] then [] else [(c.currentMsgID, cur.flatten ++ c.currentMsg)]

/-- The messages `q` were queued and the chunks `out` were cut in the states `cuts`: the messages
`done` are sent, and the pieces `cur` of the current one. -/
structure Inv (idFunc : Nat → Except Err MsgID) (c : Broadcaster) (q out : List Bytes)
    (cuts : List Broadcaster) (done : List Split) (cur : List Bytes) : Prop where
  queued : q = c.started.map Prod.snd ++ c.backlog
  started : c.started = done.map (fun s => (s.id, s.msg)) ++ c.current cur
  chunks : out = done.flatMap Split.chunks ++ cutChunks c.currentMsgID 0 cur
  idle : c.currentMsg = [] → cur = []
  pieces : ∀ p ∈ cur, p ≠ []
  index : c.currentMsg ≠ [] → c.currentIndex = UInt32.ofNat cur.length
  backlog : ∀ m ∈ c.backlog, m ≠ []
  ids : ∃ calls : List Nat, calls.Pairwise (· < ·) ∧ (∀ n ∈ calls, n < c.idCalls) ∧
    calls.map idFunc = c.started.map fun e => .ok e.1
  long : (∃ s ∈ cuts, s.currentIndex = maxIndex) ↔
    (∃ s ∈ done, 2 ^ 32 ≤ s.pieces.length) ∨ 2 ^ 32 ≤ cur.length

variable {idFunc : Nat → Except Err MsgID} {c : Broadcaster} {q out : List Bytes}
  {cuts : List Broadcaster} {done : List Split} {cur : List Bytes}

theorem Inv.message (h : c.Inv idFunc q out cuts done cur) {msg : Bytes} (hmsg : msg ≠ []) :
    (c.message msg).Inv idFunc (q ++ [msg]) out cuts done cur where
  queued := by
    rw [h.queued, List.append_assoc]
    rfl
  started := h.started
  chunks := h.chunks
  idle := h.idle
  pieces := h.pieces
  index := h.index
  backlog m hm := by
    obtain hm | hm := List.mem_append.1 hm
    · exact h.backlog m hm
    · rwa [List.mem_singleton.1 hm]
  ids := h.ids
  long := h.long

theorem Inv.nextMessage (h : c.Inv idFunc q out cuts done cur) (hidle : c.currentMsg = [])
    {msg : Bytes} {rest : List Bytes} (hbacklog : c.backlog = msg :: rest) :
    (c.nextMessage idFunc msg rest).1.Inv idFunc q out cuts done cur ∧
      ((c.nextMessage idFunc msg rest).2 = none →
        (c.nextMessage idFunc msg rest).1.currentMsg ≠ []) := by
  obtain ⟨calls, hlt, hcalls, hids⟩ := h.ids
  rw [Broadcaster.nextMessage]
  split
  · refine ⟨⟨h.queued, h.started, h.chunks, h.idle, h.pieces, h.index, h.backlog,
      ⟨calls, hlt, fun n hn => ?_, hids⟩, h.long⟩, fun hok => by cases hok⟩
    exact (hcalls n hn).trans (Nat.lt_succ_self _)
  · next id hid =>
    obtain ⟨hmsg, hrest⟩ := List.forall_mem_cons.1 (hbacklog ▸ h.backlog)
    obtain rfl := h.idle hidle
    refine ⟨⟨?_, ?_, ?_, fun hempty => absurd hempty hmsg, h.pieces, fun _ => rfl, hrest,
      ⟨calls ++ [c.idCalls], ?_, ?_, ?_⟩, h.long⟩, fun _ => hmsg⟩
    · rw [h.queued, hbacklog]
      simp
    · rw [h.started]
      simp [current, hidle, hmsg]
    · rw [h.chunks]
      rfl
    · refine List.pairwise_append.2 ⟨hlt, List.pairwise_singleton .., fun n hn k hk => ?_⟩
      rw [List.mem_singleton.1 hk]
      exact hcalls n hn
    · intro n hn
      obtain hn | hn := List.mem_append.1 hn
      · exact (hcalls n hn).trans (Nat.lt_succ_self _)
      · rw [List.mem_singleton.1 hn]
        exact Nat.lt_succ_self _
    · rw [List.map_append, hids]
      simp [hid]

theorem Inv.ready (h : c.Inv idFunc q out cuts done cur) :
    (c.ready idFunc).1.Inv idFunc q out cuts done cur ∧
      ((c.ready idFunc).2 = true → (c.ready idFunc).1.currentMsg ≠ []) := by
  rw [Broadcaster.ready]
  split
  · next hmsg => exact ⟨h, fun _ => by simp [hmsg]⟩
  · exact ⟨h, fun hready => by cases hready⟩
  · next hidle hbacklog =>
    obtain ⟨hinv, hmsg⟩ := h.nextMessage hidle hbacklog
    exact ⟨hinv, fun hready => hmsg (Option.isNone_iff_eq_none.1 hready)⟩

/-- The pieces reach `2 ^ 32` when one is cut at the largest index. -/
theorem Inv.long_cut (h : c.Inv idFunc q out cuts done cur) (hmsg : c.currentMsg ≠ []) :
    (∃ s ∈ cuts ++ [c], s.currentIndex = maxIndex) ↔
      (∃ s ∈ done, 2 ^ 32 ≤ s.pieces.length) ∨ 2 ^ 32 ≤ cur.length + 1 := by
  have hmax : c.currentIndex = maxIndex ↔ cur.length % 2 ^ 32 = 2 ^ 32 - 1 := by
    rw [h.index hmsg, maxIndex, ← UInt32.toNat_inj]
    exact Iff.rfl
  simp only [List.mem_append, List.mem_singleton, or_and_right, exists_or, exists_eq_left, h.long,
    hmax, or_assoc]
  refine or_congr_right ⟨fun hcut => ?_, fun hcut => ?_⟩ <;> omega

/-- The rest of the message fits: with the last chunk the message is sent. -/
theorem Inv.lastChunk (h : c.Inv idFunc q out cuts done cur) (hmsg : c.currentMsg ≠ [])
    {maxLen : Int} (hfits : c.currentMsg.length ≤ maxLen) :
    ∃ s, (c.messageChunk maxLen).1.Inv idFunc q (out ++ [(c.messageChunk maxLen).2])
      (cuts ++ [c]) (done ++ [s]) [] := by
  have hpieces : ∀ p ∈ cur ++ [c.currentMsg], p ≠ [] := by
    intro p hp
    obtain hp | hp := List.mem_append.1 hp
    · exact h.pieces p hp
    · rwa [List.mem_singleton.1 hp]
  refine ⟨⟨c.currentMsgID, cur, c.currentMsg, hpieces⟩, ?_⟩
  simp only [messageChunk, hfits, if_true, List.drop_length, List.take_length]
  refine ⟨h.queued, ?_, ?_, fun _ => rfl, fun p hp => absurd hp List.not_mem_nil,
    fun hne => absurd rfl hne, h.backlog, h.ids, ?_⟩
  · rw [h.started]
    simp [current, hmsg, Split.msg, Split.pieces]
  · rw [h.chunks]
    simp [Split.chunks, chunkOf, cutChunks, h.index hmsg]
  · rw [h.long_cut hmsg]
    simp [or_and_right, exists_or, Split.pieces]

/-- The rest of the message does not fit: one more piece of it is sent. -/
theorem Inv.moreChunk (h : c.Inv idFunc q out cuts done cur) (hmsg : c.currentMsg ≠ [])
    {maxLen : Int} (hmax : 0 < maxLen) (hfits : ¬ c.currentMsg.length ≤ maxLen) :
    (c.messageChunk maxLen).1.Inv idFunc q (out ++ [(c.messageChunk maxLen).2]) (cuts ++ [c]) done
      (cur ++ [c.currentMsg.take maxLen.toNat]) := by
  have hrest : c.currentMsg.drop maxLen.toNat ≠ [] := by
    rw [Ne, List.drop_eq_nil_iff]
    omega
  have hpiece : c.currentMsg.take maxLen.toNat ≠ [] := by
    rw [Ne, List.take_eq_nil_iff]
    exact not_or.2 ⟨by omega, hmsg⟩
  simp only [messageChunk, hfits, if_false]
  refine ⟨h.queued, ?_, ?_, fun hempty => absurd hempty hrest, ?_, fun _ => ?_, h.backlog, h.ids,
    ?_⟩
  · rw [h.started]
    simp [current, hmsg, hrest]
  · rw [h.chunks, cutChunks_append]
    simp [chunkOf, cutChunks, h.index hmsg]
  · intro p hp
    obtain hp | hp := List.mem_append.1 hp
    · exact h.pieces p hp
    · rwa [List.mem_singleton.1 hp]
  · rw [h.index hmsg, List.length_append, List.length_singleton, UInt32.ofNat_add]
    rfl
  · rw [h.long_cut hmsg, List.length_append, List.length_singleton]

/-- The messages `q` were queued and the chunks `out` were cut in the states `cuts`. -/
def Good (idFunc : Nat → Except Err MsgID) (c : Broadcaster) (q out : List Bytes)
    (cuts : List Broadcaster) : Prop :=
  ∃ done cur, c.Inv idFunc q out cuts done cur

theorem Good.messageChunk (h : c.Good idFunc q out cuts) (hmsg : c.currentMsg ≠ [])
    {maxLen : Int} (hmax : 0 < maxLen) :
    (c.messageChunk maxLen).1.Good idFunc q (out ++ [(c.messageChunk maxLen).2]) (cuts ++ [c]) := by
  obtain ⟨done, cur, hinv⟩ := h
  by_cases hfits : c.currentMsg.length ≤ maxLen
  · obtain ⟨s, hs⟩ := hinv.lastChunk hmsg hfits
    exact ⟨_, _, hs⟩
  · exact ⟨_, _, hinv.moreChunk hmsg hmax hfits⟩

theorem Good.ready (h : c.Good idFunc q out cuts) :
    (c.ready idFunc).1.Good idFunc q out cuts ∧
      ((c.ready idFunc).2 = true → (c.ready idFunc).1.currentMsg ≠ []) := by
  obtain ⟨done, cur, hinv⟩ := h
  obtain ⟨hready, hmsg⟩ := hinv.ready
  exact ⟨⟨done, cur, hready⟩, hmsg⟩

theorem Good.chunksLoop (h : c.Good idFunc q out cuts) (overhead limit total : Int) :
    (c.chunksLoop idFunc overhead limit total).state.Good idFunc q
      (out ++ (c.chunksLoop idFunc overhead limit total).chunks)
      (cuts ++ (c.chunksLoop idFunc overhead limit total).cuts) := by
  fun_induction Broadcaster.chunksLoop idFunc overhead limit c total generalizing out cuts with
  | case1 c total hlt c' hready =>
    have hgood := h.ready.1
    rw [hready] at hgood
    rwa [List.append_nil, List.append_nil]
  | case2 c total hlt c' hready hmax =>
    have hgood := h.ready.1
    rw [hready] at hgood
    rwa [List.append_nil, List.append_nil]
  | case3 c total hlt c' hready maxB hmax hsize cut =>
    rename_i ih
    obtain ⟨hgood, hmsg⟩ := h.ready
    rw [hready] at hgood hmsg
    have hrest := ih (hgood.messageChunk (hmsg rfl) (not_le.1 hmax))
    rwa [List.append_assoc, List.append_assoc] at hrest
  | case4 c total hlt => rwa [List.append_nil, List.append_nil]

theorem Good.run {ops : List Op} (h : c.Good idFunc q out cuts) (hops : ∀ op ∈ ops, op.Valid) :
    (c.run idFunc ops).state.Good idFunc (q ++ queued ops) (out ++ (c.run idFunc ops).chunks)
      (cuts ++ (c.run idFunc ops).cuts) := by
  induction ops generalizing c q out cuts with
  | nil => simpa [Broadcaster.run, Gossip.queued] using h
  | cons op ops ih =>
    obtain ⟨hop, htail⟩ := List.forall_mem_cons.1 hops
    cases op with
    | message msg =>
      obtain ⟨done, cur, hinv⟩ := h
      have hrest := ih ⟨done, cur, hinv.message hop⟩ htail
      rwa [List.append_assoc] at hrest
    | chunks overhead limit =>
      have hcall := h.chunksLoop overhead limit 0
      have hrest := ih hcall htail
      rwa [List.append_assoc, List.append_assoc] at hrest

end Broadcaster

end Gossip
