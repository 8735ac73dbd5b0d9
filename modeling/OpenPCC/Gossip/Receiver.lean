import Mathlib.Data.List.AList
import OpenPCC.Gossip.Broadcaster
import OpenPCC.Lib.Delivery

/-!
# Putting chunks together

A receiver collects the chunks of each message by their index. The chunk that completes a message
makes `receiveChunk` return it; the message is kept, so that chunks that arrive again are
recognised. (Messages are dropped after some time by `cleanup`, which is not part of the model, and
with it the time of creation; the number of bytes received is only a capacity.)

The loops over the indices of a message count in `uint32`, up to the index of the last chunk. If
that is the largest number and no chunk is missing, they never end: the result is then `none`.
-/

namespace Gossip

open Go

/-- `chunk`, a parsed chunk. -/
structure Chunk where
  msgID : Bytes
  index : UInt32
  final : UInt8
  data : Bytes
  deriving DecidableEq

def parseChunk (raw : Bytes) : Except Err Chunk :=
  if raw.length ≤ headerLen then
    .error (.new "expected a chunk of more than %d bytes, got %d"
      [.int headerLen, .int raw.length])
  else if raw.head? ≠ some version then
    .error (.new "can only parse chunks of version %d, got %d"
      [.int version.toNat, .int (raw.headD 0).toNat])
  else
    let idEnd := idLen + versionLen
    let indexEnd := idEnd + indexLen
    .ok { msgID := (raw.drop versionLen).take idLen
          index := BigEndian.uint32 ((raw.drop idEnd).take indexLen)
          final := (raw.drop indexEnd).headD 0
          data := raw.drop headerLen }

structure ChunkedMsg where
  chunks : AList fun _ : UInt32 => Bytes := ∅
  finalIndex : Option UInt32 := none
  deriving DecidableEq

namespace ChunkedMsg

variable (m : ChunkedMsg)

/-- The loop of `isComplete` from index `i` on, for as many iterations as there are indices. -/
def completeFrom (finalIndex : UInt32) : Nat → UInt32 → Option Bool
  | 0, _ => none
  | n + 1, i =>
    if i ≤ finalIndex then
      if (m.chunks.lookup i).isSome then completeFrom finalIndex n (i + 1) else some false
    else some true

def isComplete : Option Bool :=
  match m.finalIndex with
  | none => some false
  | some finalIndex => m.completeFrom finalIndex (2 ^ 32) 0

/-- The loop of `bytes`; it returns nil if a chunk is missing. -/
def bytesFrom (finalIndex : UInt32) : Nat → UInt32 → Bytes → Option (Option Bytes)
  | 0, _, _ => none
  | n + 1, i, out =>
    if i ≤ finalIndex then
      match m.chunks.lookup i with
      | none => some none
      | some data => bytesFrom finalIndex n (i + 1) (out ++ data)
    else some (some out)

def bytes : Option (Option Bytes) :=
  match m.finalIndex with
  | none => some none
  | some finalIndex => m.bytesFrom finalIndex (2 ^ 32) 0 []

/-- The chunk is stored, and the index of the last chunk is known with it. -/
def add (c : Chunk) : ChunkedMsg where
  chunks := m.chunks.insert c.index c.data
  finalIndex := if c.final = finalChunk then some c.index else m.finalIndex

end ChunkedMsg

structure Receiver where
  messages : AList fun _ : Bytes => ChunkedMsg := ∅
  deriving DecidableEq

namespace Receiver

def receiveChunk (r : Receiver) (b : Bytes) : Option (Receiver × Except Err (Option Bytes)) :=
  match parseChunk b with
  | .error e => some (r, .error e)
  | .ok chnk => do
    let msg := (r.messages.lookup chnk.msgID).getD {}
    if ← msg.isComplete then return (r, .ok none)
    let msg := msg.add chnk
    let r : Receiver := ⟨r.messages.insert chnk.msgID msg⟩
    if ← msg.isComplete then return (r, .ok (← msg.bytes))
    return (r, .ok none)

/-- The results for a sequence of chunks. -/
def receiveAll (r : Receiver) : List Bytes → Option (Receiver × List (Except Err (Option Bytes)))
  | [] => some (r, [])
  | b :: bs => do
    let (r, result) ← r.receiveChunk b
    let (r, results) ← r.receiveAll bs
    return (r, result :: results)

end Receiver

/-! ## Transport -/

section Transport

variable {β : Type} (idFunc : β → Nat → Except Err MsgID) (ops : β → List Op)

/-- What the broadcaster `b` does with its calls. -/
def broadcast (b : β) : Chunked := Broadcaster.run (idFunc b) {} (ops b)

/-- The broadcasters send all messages, with distinct ids. -/
structure AllSent : Prop where
  valid : ∀ b, ∀ op ∈ ops b, op.Valid
  backlog : ∀ b, (broadcast idFunc ops b).state.backlog = []
  currentMsg : ∀ b, (broadcast idFunc ops b).state.currentMsg = []
  ids : ∀ b n b' n' id, n < (broadcast idFunc ops b).state.idCalls →
    n' < (broadcast idFunc ops b').state.idCalls → idFunc b n = .ok id → idFunc b' n' = .ok id →
    b = b' ∧ n = n'

/-- The messages that `b` started, each with the chunks that have its id. -/
def sent (b : β) : List (Bytes × List Bytes) :=
  (broadcast idFunc ops b).state.started.map fun e =>
    (e.2, (broadcast idFunc ops b).chunks.filter fun x => (x.drop versionLen).take idLen = e.1.1)

/-- The messages are the ones that were queued, and each has chunks of its own. -/
structure IsSplit : Prop where
  queued : ∀ b, (sent idFunc ops b).map Prod.fst = queued (ops b)
  chunks : ∀ b, (sent idFunc ops b).flatMap Prod.snd = (broadcast idFunc ops b).chunks
  nonempty : ∀ b, ∀ m ∈ sent idFunc ops b, m.2 ≠ []
  disjoint : ∀ b, (sent idFunc ops b).Pairwise fun m m' => m.2.Disjoint m'.2
  others : ∀ b b', b ≠ b' → ∀ m ∈ sent idFunc ops b, ∀ m' ∈ sent idFunc ops b', m.2.Disjoint m'.2

/-- Of the delivery `D`, the receiver returns a message with the chunk that completes it, and
nothing with any other chunk; a message of which all chunks are delivered is completed exactly
once. -/
structure Reassembled (D : List Bytes) (results : List (Except Err (Option Bytes))) : Prop where
  length : results.length = D.length
  once : ∀ b, ∀ m ∈ sent idFunc ops b, m.2 ⊆ D →
    ∃! i, ∃ x, D[i]? = some x ∧ Delivery.Completes m.2 (D.take i) x
  message : ∀ (i : Nat) (x : Bytes), D[i]? = some x → ∀ b, ∀ m ∈ sent idFunc ops b,
    Delivery.Completes m.2 (D.take i) x → results[i]? = some (.ok (some m.1))
  nothing : ∀ (i : Nat) (x : Bytes), D[i]? = some x →
    (∀ b, ∀ m ∈ sent idFunc ops b, ¬ Delivery.Completes m.2 (D.take i) x) →
    results[i]? = some (.ok none)

/-- Every delivery of the chunks to a new receiver gives the messages. -/
def Lossless : Prop :=
  IsSplit idFunc ops ∧
    ∀ D : List Bytes, (∀ x ∈ D, ∃ b, x ∈ (broadcast idFunc ops b).chunks) →
      ∃ r results, Receiver.receiveAll {} D = some (r, results) ∧ Reassembled idFunc ops D results

end Transport

end Gossip
