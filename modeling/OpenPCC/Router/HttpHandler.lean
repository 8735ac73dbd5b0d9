import OpenPCC.Anonpay.Processor

/-!
# The end of a proxied response (`router/http_handler.go`)

When the body of a compute node's response is at its end, the router commits the transaction that
pays for it. The node may have asked for a refund in a trailer; `eofCallback` decodes it, commits
with that value unspent and hands the new credit to the client in another trailer. A body can be
read after its end, and then the callback runs again. The handler rolls the transaction back when
the proxy returns (`Response.serve`).
-/

namespace Router

open Go Anonpay

/-- The callback at the end of a response whose refund trailer is `val`: the refund and its text for
the client's trailer, if any, and the transaction it leaves. `marshalText` is the text form of a
credit. -/
def eofCallback (codec : TextCodec) (marshalText : UnblindedCredit → Except Err Bytes)
    (tx : Transaction) (d : Draw) (val : Bytes) :
    Op (Except Err (Option (UnblindedCredit × Bytes)) × Transaction) := do
  if val = [] then
    match ← tx.commit with
    | (some e, tx) => return (.error (.errorf "failed to commit transaction: %w" [] e), tx)
    | (none, tx) => return (.ok none, tx)
  else match unmarshalText codec val with
  | .error e =>
    return (.error (.errorf "failed to unmarshal currency value from header: %w" [] e), tx)
  | .ok value =>
    match ← tx.commitWithUnspend d value with
    | (.error e, tx) =>
      return (.error (.errorf "failed to commit transaction with unspend credits: %w" [] e), tx)
    | (.ok refund, tx) =>
      match marshalText refund with
      | .error e => return (.error (.errorf "failed to marshal refund to text: %w" [] e), tx)
      | .ok refundTxt => return (.ok (some (refund, refundTxt)), tx)

/-! ## Reading the body -/

/-- The error of a `Read`: one that is `io.EOF`, or another one. -/
inductive ReadErr where
  | eof
  | other (err : Err)
  deriving DecidableEq

/-- What a `Read` returns. -/
structure ReadResult where
  n : Nat
  err : Option ReadErr
  deriving DecidableEq

/-- A response on its way through the proxy: the transaction that pays for it and its trailers. -/
structure Response where
  tx : Transaction
  /-- `api.RefundAmountHeader`, from the node -/
  refundAmount : Bytes
  /-- `api.RefundHeader`, for the client -/
  refund : Option Bytes := none

namespace Response

variable (codec : TextCodec) (marshalText : UnblindedCredit → Except Err Bytes) (d : Draw)

/-- The callback on the trailers. The node's trailer is deleted in any case, so a refund is drawn at
most once. -/
def eofCallback (res : Response) : Op (Option Err × Response) := do
  let (refund, tx) ← Router.eofCallback codec marshalText res.tx d res.refundAmount
  let res := { res with tx := tx, refundAmount := [] }
  match refund with
  | .error e => return (some e, res)
  | .ok none => return (none, res)
  | .ok (some (_, refundTxt)) => return (none, { res with refund := some refundTxt })

/-- `readCloserEOFCallback.Read`, when the `Read` of the original body returns `orig`. -/
def read (res : Response) (orig : ReadResult) : Op (ReadResult × Response) := do
  match orig.err with
  | some .eof =>
    match ← res.eofCallback codec marshalText d with
    | (some callbackErr, res) => return (⟨orig.n, some (.other callbackErr)⟩, res)
    | (none, res) => return (orig, res)
  | _ => return (orig, res)

/-- A sequence of reads. -/
def readAll (res : Response) : List ReadResult → Op (List ReadResult × Response)
  | [] => return ([], res)
  | orig :: origs => do
    let (r, res) ← res.read codec marshalText d orig
    let (rs, res) ← res.readAll origs
    return (r :: rs, res)

end Response

/-- How a response is copied to the client: the reads of the original body, which stays at its end
once it is there, and whether the response could be written. -/
structure Copying where
  /-- the bytes and the error, if any, of the reads before the end -/
  before : List (Nat × Option Err)
  /-- the bytes of the reads at the end -/
  atEOF : List Nat
  writeFails : Bool
  /-- the request comes from an `http.Server` -/
  server : Bool

namespace Copying

def origs (c : Copying) : List ReadResult :=
  c.before.map (fun r => ⟨r.1, r.2.map .other⟩) ++ c.atEOF.map fun n => ⟨n, some .eof⟩

/-- `httputil.ReverseProxy` panics with `http.ErrAbortHandler` under a server if the copying
fails. -/
def aborts (c : Copying) (results : List ReadResult) : Bool :=
  c.server && (c.writeFails || results.any fun r => r.err matches some (.other _))

end Copying

/-- The rest of the handler, from `proxy.ServeHTTP` on: the results of the reads. A panic of the
proxy is one of the handler, so `Rollback` is not reached. -/
def Response.serve (codec : TextCodec) (marshalText : UnblindedCredit → Except Err Bytes) (d : Draw)
    (res : Response) (c : Copying) : Op (List ReadResult) := do
  let (results, res) ← res.readAll codec marshalText d c.origs
  if c.aborts results then return results
  else
    let _ ← res.tx.rollback
    return results

end Router
