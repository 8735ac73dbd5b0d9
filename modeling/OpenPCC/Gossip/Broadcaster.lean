import OpenPCC.Go.Error

/-!
# Splitting messages into chunks

A broadcaster queues messages and cuts them into chunks. A call of `chunks` fills a budget of
`limit` bytes, of which every chunk takes `overhead` bytes besides its own; a message that does not
fit goes on in the next call. A chunk has a header with the id of its message, its index and a mark
on the last chunk.

The id of the `n`-th message that is started is what the `n`-th call of `idFunc` gives; a call may
fail. To speak about runs, a broadcaster remembers the messages it started, and the result of
`chunks` has, besides the chunks, the states in which they were cut (`Chunked.cuts`).
-/

namespace Gossip

open Go

def versionLen : Nat := 1
def idLen : Nat := 16
def indexLen : Nat := 4
def finalLen : Nat := 1
def headerLen : Nat := versionLen + idLen + indexLen + finalLen

def version : UInt8 := 1

def finalChunk : UInt8 := 1

/-- `[idLen]byte`. -/
abbrev MsgID := { b : Bytes // b.length = idLen }

structure Broadcaster where
  /-- the messages that are not started -/
  backlog : List Bytes := []
  currentMsgID : MsgID := ⟨List.replicate idLen 0, rfl⟩
  currentIndex : UInt32 := 0
  /-- what is left of the current message -/
  currentMsg : Bytes := []
  /-- the number of calls of `idFunc` -/
  idCalls : Nat := 0
  /-- the messages that were started, with their ids -/
  started : List (MsgID × Bytes) := []
  deriving DecidableEq

/-- The largest index: the one after it is 0 again. -/
def maxIndex : UInt32 := UInt32.ofNat (2 ^ 32 - 1)

/-- What a call of `chunks` leaves and returns; `cuts` are the states in which the chunks were
cut. -/
structure Chunked where
  state : Broadcaster
  chunks : List Bytes := []
  cuts : List Broadcaster := []
  deriving DecidableEq

/-- The header of a chunk (`writeHeader`). -/
def header (id : MsgID) (index : UInt32) (final : UInt8) : Bytes :=
  version :: id.1 ++ BigEndian.putUint32 index ++ [final]

namespace Broadcaster

variable (idFunc : Nat → Except Err MsgID)

def message (c : Broadcaster) (msg : Bytes) : Broadcaster :=
  { c with backlog := c.backlog ++ [msg] }

/-- `nextMessage`, for the first message of the backlog and the rest of it. -/
def nextMessage (c : Broadcaster) (msg : Bytes) (rest : List Bytes) : Broadcaster × Option Err :=
  match idFunc c.idCalls with
  | .error e =>
    ({ c with idCalls := c.idCalls + 1 }, some (.errorf "failed to generate ID: %w" [] e))
  | .ok id => (⟨rest, id, 0, msg, c.idCalls + 1, c.started ++ [(id, msg)]⟩, none)

/-- The start of an iteration of `chunks`: there is a current message, or one can be started. -/
def ready (c : Broadcaster) : Broadcaster × Bool :=
  match c.currentMsg, c.backlog with
  | _ :: _, _ => (c, true)
  | [], [] => (c, false)
  | [], msg :: rest => ((c.nextMessage idFunc msg rest).1, (c.nextMessage idFunc msg rest).2.isNone)

def messageChunk (c : Broadcaster) (maxLen : Int) : Broadcaster × Bytes :=
  let fits := c.currentMsg.length ≤ maxLen
  let n := if fits then c.currentMsg.length else maxLen.toNat
  let final := if fits then finalChunk else 0
  ({ c with currentMsg := c.currentMsg.drop n, currentIndex := c.currentIndex + 1 },
    header c.currentMsgID c.currentIndex final ++ c.currentMsg.take n)

/-- The bytes and messages that are left; every chunk takes some of them. -/
def size (c : Broadcaster) : Nat :=
  c.currentMsg.length + (c.backlog.map (·.length + 1)).sum

theorem size_nextMessage (c : Broadcaster) {msg : Bytes} {rest : List Bytes}
    (hmsg : c.currentMsg = []) (hbacklog : c.backlog = msg :: rest)
    (hok : (c.nextMessage idFunc msg rest).2 = none) :
    (c.nextMessage idFunc msg rest).1.size < c.size := by
  rw [nextMessage] at hok ⊢
  split at hok
  · cases hok
  · simp [size, hmsg, hbacklog]

theorem size_messageChunk_le (c : Broadcaster) (maxLen : Int) :
    (c.messageChunk maxLen).1.size ≤ c.size := by
  simp [messageChunk, size]

theorem size_messageChunk_lt {c : Broadcaster} (hmsg : c.currentMsg ≠ []) {maxLen : Int}
    (hmax : 0 < maxLen) : (c.messageChunk maxLen).1.size < c.size := by
  have hlen := List.length_pos_iff.2 hmsg
  simp only [messageChunk, size, List.length_drop]
  split <;> omega

theorem size_ready_messageChunk {c c' : Broadcaster} (hready : c.ready idFunc = (c', true))
    {maxLen : Int} (hmax : 0 < maxLen) : (c'.messageChunk maxLen).1.size < c.size := by
  rw [ready] at hready
  split at hready
  · next hmsg =>
    cases hready
    exact size_messageChunk_lt (by simp [hmsg]) hmax
  · cases hready
  · next hmsg hbacklog =>
    rw [Prod.mk.injEq, Option.isNone_iff_eq_none] at hready
    obtain ⟨rfl, hok⟩ := hready
    exact (size_messageChunk_le _ maxLen).trans_lt (size_nextMessage idFunc c hmsg hbacklog hok)

/-- The loop of `chunks`; `total` is the part of the budget that is used. -/
def chunksLoop (overhead limit : Int) (c : Broadcaster) (total : Int) : Chunked :=
  if total < limit then
    match hready : c.ready idFunc with
    | (c', false) => { state := c' }
    | (c', true) =>
      let maxB := int64 (limit - total - overhead - headerLen)
      if hmax : maxB ≤ 0 then { state := c' }
      else
        have := size_ready_messageChunk idFunc hready (not_le.1 hmax)
        let cut := c'.messageChunk maxB
        let r := chunksLoop overhead limit cut.1 (int64 (total + (overhead + cut.2.length)))
        { r with chunks := cut.2 :: r.chunks, cuts := c' :: r.cuts }
  else { state := c }
termination_by c.size

def chunks (c : Broadcaster) (overhead limit : Int) : Chunked :=
  c.chunksLoop idFunc overhead limit 0

end Broadcaster

/-! ## Runs -/

/-- The calls of a broadcaster. -/
inductive Op where
  | message (msg : Bytes)
  | chunks (overhead limit : Int)
  deriving DecidableEq

/-- Messages are not empty, and the overhead is not negative. -/
def Op.Valid : Op → Prop
  | .message msg => msg ≠ []
  | .chunks overhead _ => 0 ≤ overhead

/-- All chunks of a sequence of calls. -/
def Broadcaster.run (idFunc : Nat → Except Err MsgID) (c : Broadcaster) : List Op → Chunked
  | [] => { state := c }
  | .message msg :: ops => (c.message msg).run idFunc ops
  | .chunks overhead limit :: ops =>
    let r := c.chunks idFunc overhead limit
    let rest := r.state.run idFunc ops
    { state := rest.state, chunks := r.chunks ++ rest.chunks, cuts := r.cuts ++ rest.cuts }

/-- The messages that are queued. -/
def queued : List Op → List Bytes
  | [] => []
  | .message msg :: ops => msg :: queued ops
  | .chunks _ _ :: ops => queued ops

end Gossip
