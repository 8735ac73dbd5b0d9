import OpenPCC.Gossip.Proof.Chunks

/-!
# Broadcasts and the packet they go into

A call of `chunks` sends what it takes from the messages, in order (`chunksLoop_left`), and every
chunk of a message that is not empty has data (`chunksLoop_cutFrom`). The chunks with their overhead
fit into the limit, unless the room that is left for the first one is below the least `int`
(`chunks_fit_iff`).
-/

namespace Gossip

open Go

/-- What a chunk carries. -/
def payload (chunk : Bytes) : Bytes := chunk.drop headerLen

/-- The room that a list of chunks takes. -/
def room (overhead : Int) (chunks : List Bytes) : Int :=
  (chunks.map fun chunk => overhead + chunk.length).sum

@[simp] theorem room_nil (overhead : Int) : room overhead [] = 0 := rfl

theorem room_cons (overhead : Int) (chunk : Bytes) (chunks : List Bytes) :
    room overhead (chunk :: chunks) = overhead + chunk.length + room overhead chunks :=
  List.sum_cons

theorem room_nonneg {overhead : Int} (h : 0 ≤ overhead) (chunks : List Bytes) :
    0 ≤ room overhead chunks := by
  induction chunks with
  | nil => exact le_rfl
  | cons chunk chunks ih =>
    rw [room_cons]
    omega

/-- The chunk was cut in the state `cut`, with data if there is any. -/
def CutFrom (cut : Broadcaster) (chunk : Bytes) : Prop :=
  ∃ final, chunk = header cut.currentMsgID cut.currentIndex final ++ payload chunk ∧
    payload chunk <+: cut.currentMsg ∧ (cut.currentMsg ≠ [] → payload chunk ≠ [])

namespace Broadcaster

/-- What is left to send. -/
def left (c : Broadcaster) : Bytes := c.currentMsg ++ c.backlog.flatten

/-- There is a current message, or one that can be started. -/
def Pending (idFunc : Nat → Except Err MsgID) (c : Broadcaster) : Prop :=
  c.currentMsg ≠ [] ∨ c.backlog ≠ [] ∧ ∃ id, idFunc c.idCalls = .ok id

end Broadcaster

/-- The result of a call in the state `c` fits the packet, and nothing is lost or sent twice. -/
structure Chunked.Fits (r : Chunked) (c : Broadcaster) (overhead limit : Int) : Prop where
  budget : room overhead r.chunks ≤ limit
  cuts : List.Forall₂ CutFrom r.cuts r.chunks
  left : (r.chunks.map payload).flatten ++ r.state.left = c.left

/-! ## One chunk -/

theorem payload_header (id : MsgID) (index : UInt32) (final : UInt8) (data : Bytes) :
    payload (header id index final ++ data) = data := by
  rw [payload, ← length_header id index final, List.drop_left]

namespace Broadcaster

variable {idFunc : Nat → Except Err MsgID} {c : Broadcaster}

theorem payload_messageChunk (c : Broadcaster) (maxLen : Int) :
    payload (c.messageChunk maxLen).2 ++ (c.messageChunk maxLen).1.left = c.left := by
  simp only [messageChunk, payload_header, left]
  rw [← List.append_assoc, List.take_append_drop]

theorem cutFrom_messageChunk (c : Broadcaster) {maxLen : Int} (hmax : 0 < maxLen) :
    CutFrom c (c.messageChunk maxLen).2 := by
  simp only [CutFrom, messageChunk, payload_header]
  refine ⟨_, rfl, List.take_prefix _ _, fun hmsg => ?_⟩
  have hlen := List.length_pos_iff.2 hmsg
  rw [Ne, List.take_eq_nil_iff]
  split <;> exact not_or.2 ⟨by omega, hmsg⟩

theorem length_messageChunk (c : Broadcaster) {maxLen : Int} (hmax : 0 < maxLen) :
    headerLen ≤ (c.messageChunk maxLen).2.length ∧
      ((c.messageChunk maxLen).2.length : Int) ≤ headerLen + maxLen := by
  simp only [messageChunk, List.length_append, length_header, List.length_take]
  split <;> omega

/-! ## A call -/

variable (idFunc) in
theorem left_ready (c : Broadcaster) : (c.ready idFunc).1.left = c.left := by
  rw [ready]
  split
  · rfl
  · rfl
  · next hmsg hbacklog =>
    rw [nextMessage]
    split
    · rfl
    · simp [left, hmsg, hbacklog]

theorem ready_iff_pending (c : Broadcaster) : (c.ready idFunc).2 = true ↔ c.Pending idFunc := by
  rw [ready, Pending]
  split
  · next hmsg => simp [hmsg]
  · next hmsg hbacklog => simp [hmsg, hbacklog]
  · next hmsg hbacklog =>
    rw [nextMessage]
    split
    · next e he => simp [hmsg, hbacklog, he]
    · next id hid => simp [hmsg, hbacklog, hid]

theorem chunksLoop_left (c : Broadcaster) (overhead limit total : Int) :
    ((c.chunksLoop idFunc overhead limit total).chunks.map payload).flatten ++
      (c.chunksLoop idFunc overhead limit total).state.left = c.left := by
  fun_induction Broadcaster.chunksLoop idFunc overhead limit c total with
  | case1 c total hlt c' hready =>
    have hleft := left_ready idFunc c
    rwa [hready] at hleft
  | case2 c total hlt c' hready hmax =>
    have hleft := left_ready idFunc c
    rwa [hready] at hleft
  | case3 c total hlt c' hready maxB hmax hsize cut =>
    rename_i ih
    have hleft := left_ready idFunc c
    rw [hready] at hleft
    rw [List.map_cons, List.flatten_cons, List.append_assoc, ih, ← hleft]
    exact payload_messageChunk c' maxB
  | case4 c total hlt => rfl

theorem chunksLoop_cutFrom (c : Broadcaster) (overhead limit total : Int) :
    List.Forall₂ CutFrom (c.chunksLoop idFunc overhead limit total).cuts
      (c.chunksLoop idFunc overhead limit total).chunks := by
  fun_induction Broadcaster.chunksLoop idFunc overhead limit c total with
  | case1 => exact .nil
  | case2 => exact .nil
  | case3 c total hlt c' hready maxB hmax hsize cut =>
    rename_i ih
    exact .cons (cutFrom_messageChunk c' (not_le.1 hmax)) ih
  | case4 => exact .nil

/-- The least `int`. -/
def minInt : Int := -maxInt64 - 1

/-- As long as the room for the next chunk is an `int`, the chunks stay in the limit: after a chunk
the overhead is below the limit, so the room for the one after it is an `int` again. -/
theorem chunksLoop_budget {overhead limit total : Int} (hoverhead : 0 ≤ overhead)
    (hlimit : limit ≤ maxInt64) (h0 : 0 ≤ total) (htotal : total ≤ limit)
    (hroom : minInt ≤ limit - total - overhead - headerLen) :
    total + room overhead (c.chunksLoop idFunc overhead limit total).chunks ≤ limit := by
  fun_induction Broadcaster.chunksLoop idFunc overhead limit c total with
  | case1 => simpa using htotal
  | case2 => simpa using htotal
  | case3 c total hlt c' hready maxB hmax hsize cut =>
    rename_i r ih
    have hmin : minInt = -9223372036854775808 := rfl
    have hmaxInt : maxInt64 = 9223372036854775807 := rfl
    have hheader : headerLen = 22 := rfl
    have hmaxB : maxB = limit - total - overhead - headerLen := by
      refine Int.bmod_eq_of_le ?_ ?_ <;> omega
    obtain ⟨hlen, hle⟩ := length_messageChunk c' (not_le.1 hmax)
    have hcut : cut.2.length = (c'.messageChunk maxB).2.length := rfl
    have hnext : int64 (total + (overhead + cut.2.length)) = total + (overhead + cut.2.length) :=
      int64_eq (by omega) (by omega)
    have hrest : int64 (total + (overhead + cut.2.length)) + room overhead r.chunks ≤ limit :=
      ih (by omega) (by omega) (by omega)
    rw [room_cons]
    omega
  | case4 => simpa using htotal

/-- The room for the first chunk is below the least `int`: the code takes it for a large one. -/
theorem chunks_exceeds {overhead limit : Int} (hoverhead : 0 ≤ overhead ∧ overhead ≤ maxInt64)
    (hpos : 0 < limit) (hroom : limit - overhead - headerLen < minInt)
    (hpending : c.Pending idFunc) :
    limit < room overhead (c.chunks idFunc overhead limit).chunks := by
  have hmin : minInt = -9223372036854775808 := rfl
  have hmaxInt : maxInt64 = 9223372036854775807 := rfl
  have hheader : headerLen = 22 := rfl
  have hready := (ready_iff_pending c).2 hpending
  have hmaxB : 0 < int64 (limit - 0 - overhead - headerLen) := by
    have hwrap : int64 (limit - 0 - overhead - headerLen) =
        limit - overhead - headerLen + 2 ^ 64 := by
      simp only [int64, Int.bmod]
      omega
    omega
  rw [chunks, chunksLoop, if_pos hpos]
  split
  · next c' hfalse =>
    rw [hfalse] at hready
    cases hready
  · next c' htrue =>
    simp only
    rw [dif_neg (not_le.2 hmaxB), room_cons]
    refine lt_of_lt_of_le ?_ (le_add_of_nonneg_right (room_nonneg hoverhead.1 _))
    omega

theorem chunks_of_limit_nonpos {overhead limit : Int} (hlimit : limit ≤ 0) :
    c.chunks idFunc overhead limit = { state := c } := by
  rw [chunks, chunksLoop, if_neg (not_lt.2 hlimit)]

theorem chunks_of_not_pending {overhead limit : Int} (hpending : ¬ c.Pending idFunc) :
    (c.chunks idFunc overhead limit).chunks = [] := by
  rw [← ready_iff_pending] at hpending
  rw [chunks, chunksLoop]
  split
  · split
    · rfl
    · next c' htrue =>
      rw [htrue] at hpending
      exact absurd rfl hpending
  · rfl

/-- The broadcasts fit the packet, unless there is something to send and the limit less the overhead
and the header is below the least `int`. For a negative limit, which nothing fits, nothing is
sent. -/
theorem chunks_fit_iff (idFunc : Nat → Except Err MsgID) (c : Broadcaster) {overhead limit : Int}
    (hoverhead : 0 ≤ overhead ∧ overhead ≤ maxInt64) (hlimit : limit ≤ maxInt64) :
    ((c.chunks idFunc overhead limit).Fits c overhead limit ↔
        0 ≤ limit ∧ ¬(0 < limit ∧ limit - overhead - headerLen < minInt ∧ c.Pending idFunc)) ∧
      (limit < 0 → c.chunks idFunc overhead limit = { state := c }) := by
  refine ⟨⟨fun hfits => ⟨?_, fun hbad => ?_⟩, fun ⟨h0, hgood⟩ => ?_⟩,
    fun hneg => chunks_of_limit_nonpos hneg.le⟩
  · by_contra hneg
    have hbudget := hfits.budget
    rw [chunks_of_limit_nonpos (by omega)] at hbudget
    exact hneg hbudget
  · obtain ⟨hpos, hroom, hpending⟩ := hbad
    exact absurd hfits.budget (not_le.2 (chunks_exceeds hoverhead hpos hroom hpending))
  · refine ⟨?_, chunksLoop_cutFrom c overhead limit 0, chunksLoop_left c overhead limit 0⟩
    by_cases hpending : c.Pending idFunc
    · by_cases hpos : 0 < limit
      · have hroom : minInt ≤ limit - 0 - overhead - headerLen := by
          rw [Int.sub_zero]
          exact not_lt.1 fun hlt => hgood ⟨hpos, hlt, hpending⟩
        have hbudget : 0 + room overhead (c.chunksLoop idFunc overhead limit 0).chunks ≤ limit :=
          chunksLoop_budget hoverhead.1 hlimit le_rfl h0 hroom
        rwa [Int.zero_add] at hbudget
      · rw [chunks_of_limit_nonpos (not_lt.1 hpos)]
        exact h0
    · rw [chunks_of_not_pending hpending]
      exact h0

/-- The id of all messages below. -/
def sevenID : MsgID := ⟨List.replicate idLen 7, rfl⟩

/-- A broadcaster with two messages. -/
def twoMessages : Broadcaster :=
  { backlog := [[1, 2, 3], List.replicate 20 4], currentMsgID := sevenID }

/-- The second message is cut at the end of a packet of 60 bytes. -/
theorem chunks_fit_60 :
    (twoMessages.chunks (fun _ => .ok sevenID) 2 60).Fits twoMessages 2 60 := by
  refine (chunks_fit_iff _ twoMessages (by decide) (by decide)).1.2 ⟨by decide, fun hbad => ?_⟩
  exact absurd hbad.2.1 (by decide)

/-- In a packet of one byte with the largest overhead a chunk is sent all the same. -/
theorem chunks_exceed_1 :
    1 - maxInt64 - headerLen < minInt ∧
      1 < room maxInt64 (twoMessages.chunks (fun _ => .ok sevenID) maxInt64 1).chunks ∧
      ¬ (twoMessages.chunks (fun _ => .ok sevenID) maxInt64 1).Fits twoMessages maxInt64 1 := by
  have hroom : 1 - maxInt64 - headerLen < minInt := by decide
  have hexceeds : 1 < room maxInt64 (twoMessages.chunks (fun _ => .ok sevenID) maxInt64 1).chunks :=
    chunks_exceeds (by decide) (by decide) hroom (.inr ⟨List.cons_ne_nil _ _, sevenID, rfl⟩)
  exact ⟨hroom, hexceeds, fun hfits => absurd hfits.budget (not_le.2 hexceeds)⟩

end Broadcaster

end Gossip
