import OpenPCC.Go.Outcome
import OpenPCC.Go.Reader

/-!
# Request bodies that are sent again (`httpretry/httpretry.go`)

`DoWith` wraps the body of a request so that it can be read once for each attempt. The first attempt
reads the original body and records what it reads; `Rewind` waits until that body is closed, and
later attempts read the recording. The transport of an attempt may still use the body when `Rewind`
is called for the next one.
-/

namespace Httpretry

open Go

/-- The body of a request; `closeErr` is what its `Close` returns. -/
structure OrigBody extends Source where
  closeErr : Option Err

/-- The channel `origCloseDone`, with room for one error. -/
inductive CloseChan where
  | empty
  /-- closed, with the error still in it -/
  | closed (err : Option Err)
  /-- closed, and the error was received -/
  | drained
  deriving DecidableEq

structure RewindableBody where
  orig : OrigBody
  /-- the position in the original body -/
  pos : Nat
  /-- `waitForOrigCloseOnce` has run -/
  waited : Bool
  origCloseDone : CloseChan
  origCloseErr : Option Err
  origClosed : Bool
  buffer : Bytes
  /-- a `bytes.Reader`: its bytes and its position -/
  recording : Option (Bytes × Nat)

def newRewindableBody (orig : OrigBody) : RewindableBody where
  orig := orig
  pos := 0
  waited := false
  origCloseDone := .empty
  origCloseErr := none
  origClosed := false
  buffer := []
  recording := none

namespace RewindableBody

/-- The start of `Rewind`: the first call counts the body as closed before it waits. -/
def startRewind (c : RewindableBody) : RewindableBody :=
  if c.waited then c else { c with origClosed := true }

/-- The rest of the function that `Rewind` runs once; `none` while the channel is empty, where it
waits. -/
def waitForOrigClose (c : RewindableBody) : Option RewindableBody :=
  if c.waited then some c
  else
    match c.origCloseDone with
    | .empty => none
    | .closed err =>
      some { c with
        waited := true
        origCloseErr := err
        origCloseDone := .drained
        recording := some (c.buffer, 0) }
    | .drained =>
      -- receiving from a closed channel gives nil
      some { c with
        waited := true
        origCloseErr := none
        recording := some (c.buffer, 0) }

/-- The rest of `Rewind`: the error that it returns, and the body after it. -/
def endRewind (c : RewindableBody) : Option (Option Err × RewindableBody) :=
  c.waitForOrigClose.map fun c =>
    match c.origCloseErr with
    | some err => (some (.errorf "can't rewind body that failed to close: %w" [] err), c)
    | none => (none, { c with recording := c.recording.map fun r => (r.1, 0) })

/-- `Read` into `size` bytes: the bytes, whether `io.EOF` is reported, and the body after it. -/
def read (c : RewindableBody) (size : Nat) : Outcome ((Bytes × Bool) × RewindableBody) :=
  match c.origCloseErr with
  | some err => .err (.errorf "can't read from body that failed to close: %w" [] err)
  | none =>
    if c.origClosed then
      match c.recording with
      | none => .panic
      | some (b, i) =>
        let r := (Source.ofBytes b).read i size
        .ok (r, { c with recording := some (b, i + r.1.length) })
    else
      let r := c.orig.read c.pos size
      .ok (r, { c with pos := c.pos + r.1.length, buffer := c.buffer ++ r.1 })

/-- `Close`; a send on a closed channel panics. -/
def close (c : RewindableBody) : Outcome (Option Err × RewindableBody) :=
  if c.origClosed then .ok (c.origCloseErr, c)
  else
    match c.origCloseDone with
    | .empty => .ok (c.orig.closeErr, { c with origCloseDone := .closed c.orig.closeErr })
    | _ => .panic

/-! ## Attempts -/

/-- A sequence of reads: all bytes, and whether one of them reports `io.EOF`. -/
def reads (c : RewindableBody) : List Nat → Outcome ((Bytes × Bool) × RewindableBody)
  | [] => .ok (([], false), c)
  | size :: sizes => do
    let (r, c) ← c.read size
    let (rs, c) ← c.reads sizes
    return ((r.1 ++ rs.1, r.2 || rs.2), c)

def closeTimes (c : RewindableBody) : Nat → Outcome RewindableBody
  | 0 => .ok c
  | n + 1 => do
    let (_, c) ← c.close
    c.closeTimes n

/-- What the transport does with the body: it reads, and then closes. -/
structure Use where
  sizes : List Nat
  closes : Nat

def use (c : RewindableBody) (u : Use) : Outcome RewindableBody := do
  let (_, c) ← c.reads u.sizes
  c.closeTimes u.closes

/-- What the transport does in an attempt, before and after `Rewind` is called for the next one. It
does not read what it has closed, and closes the body in the end. -/
structure Attempt where
  before : Use
  late : Use
  reads_first : 0 < before.closes → late.sizes = []
  closes_pos : 0 < before.closes + late.closes

/-- `Rewind`, with what the transport still does after the call: while `Rewind` waits, or when it
has returned. It is `none` if `Rewind` still waits when the transport is done. -/
def rewind (c : RewindableBody) (late : Use) : Outcome (Option (Option Err × RewindableBody)) :=
  match c.startRewind.endRewind with
  | some (err, c) => do
    let c ← c.use late
    return some (err, c)
  | none => do
    let c ← c.startRewind.use late
    return c.endRewind

/-- Reading the body gives `data` and then `io.EOF`, with any reads. -/
def Offers (c : RewindableBody) (data : Bytes) : Prop :=
  ∀ sizes, ∃ r c', c.reads sizes = .ok (r, c') ∧ r.1 <+: data ∧ (r.2 = true → r.1 = data) ∧
    (data.length < (sizes.filter (0 < ·)).length → r.2 = true)

/-- The attempts return, and after each of them but the last the body can be rewound and offers all
of the data to the next. -/
def Resends (data : Bytes) : RewindableBody → List Attempt → Prop
  | _, [] => True
  | c, [a] => ∃ c' c'', c.use a.before = .ok c' ∧ c'.use a.late = .ok c''
  | c, a :: next :: as => ∃ c' c'', c.use a.before = .ok c' ∧
    c'.rewind a.late = .ok (some (none, c'')) ∧ c''.Offers data ∧ Resends data c'' (next :: as)

/-- The first attempt closes the body once. If there is another one, it does so before `Rewind` is
called, the body closes without an error and was read to its end, and the attempts between the first
and the last read nothing more once `Rewind` is called. -/
def Replayable (orig : OrigBody) : List Attempt → Prop
  | [] => True
  | [a] => a.before.closes + a.late.closes = 1
  | a :: next :: as => (a.before.closes = 1 ∧ orig.closeErr = none ∧
      orig.readTo 0 a.before.sizes = orig.data.length) ∧
    ∀ b ∈ (next :: as).dropLast, (Source.ofBytes orig.data).readTo 0 b.late.sizes = 0

end RewindableBody

end Httpretry
