import OpenPCC.Anonpay.HttpBank
import OpenPCC.Httpretry.DoWith

/-!
# A ticket locker over HTTP (`anonpay/noncelocking/httpapi/client.go`, `server.go`)

The server calls a locker with what it decodes from a request, and each method of the client is a
call of `DoWith` against the server (`LockerCall.protocol`). The network may lose a request or a
response, and an attempt may fail before or after the server has processed its request. What the
in-memory locker reads when it processes a request, the clock and the random bytes, is an argument
of that step.
-/

namespace Anonpay

open Go Httpretry

/-- `noncelocking.TicketLockerContract`. -/
structure TicketLockerContract (L : Type) where
  lockNonce : Nonce → L → Except Err Bytes × L
  consumeNonce : Nonce → (ticket : Bytes) → L → Option Err × L
  releaseNonce : Nonce → (ticket : Bytes) → L → Option Err × L

def InMem.ticketLocker (now : Int) (rand : Except Err (Vector UInt8 8)) :
    TicketLockerContract InMem.NonceLocker where
  lockNonce nonce l := l.lockNonce now rand nonce
  consumeNonce nonce ticket l := l.consumeNonce nonce ticket
  releaseNonce nonce ticket l := l.releaseNonce nonce ticket

namespace Pb

structure LockRequest where
  nonce : Option Nonce

structure UnlockRequest where
  nonce : Option Nonce
  ticket : Bytes

end Pb

namespace LockApi

/-- A response: the ticket or nothing with status 200, or the statuses 400, 409, 410 and 500. -/
inductive Reply where
  | ok (body : Bytes)
  | badRequest (msg : String)
  | conflict (msg : String)
  | gone (msg : String)
  | serverError
  deriving DecidableEq

def Reply.statusCode : Reply → Nat
  | ok _ => 200
  | badRequest _ => 400
  | conflict _ => 409
  | gone _ => 410
  | serverError => 500

/-! ## The server -/

/-- `convertInputError`, and what `BinaryHandler` writes for the error. -/
def convertInputError (err : Err) : Reply :=
  if isInputError err then .badRequest "invalid input"
  else if err.is .nonceLocked then .conflict "nonce is locked"
  else if err.is .nonceConsumed then .gone "nonce is consumed"
  else .serverError

section

variable {L : Type} (locker : TicketLockerContract L)

def lockHandler (req : Pb.LockRequest) (l : L) : Reply × L :=
  match Nonce.unmarshalProto req.nonce with
  | .error _ => (.badRequest "invalid binary data", l)
  | .ok nonce =>
    match locker.lockNonce nonce l with
    | (.error e, l) => (convertInputError e, l)
    | (.ok ticket, l) => (.ok ticket, l)

/-- The part that the other two handlers share. -/
def unlockHandler (targetFunc : Nonce → Bytes → L → Option Err × L) (req : Pb.UnlockRequest)
    (l : L) : Reply × L :=
  match Nonce.unmarshalProto req.nonce with
  | .error _ => (.badRequest "invalid binary data", l)
  | .ok nonce =>
    match targetFunc nonce req.ticket l with
    | (some e, l) => (convertInputError e, l)
    | (none, l) => (.ok [], l)

def consumeHandler : Pb.UnlockRequest → L → Reply × L := unlockHandler locker.consumeNonce

def releaseHandler : Pb.UnlockRequest → L → Reply × L := unlockHandler locker.releaseNonce

end

/-! ## The client -/

/-- `doRequest`, from the end of `DoWith`: the body of the response. -/
def doRequest (endpoint : String) : Except Failure Reply → Except Err Bytes
  | .error f => .error f.err
  | .ok (.ok body) => .ok body
  | .ok (.badRequest _) =>
    .error (.inputError
      (.new ("unexpected status code from blind bank: %d for " ++ endpoint) [.int 400]))
  | .ok (.gone _) => .error (.var .nonceConsumed)
  | .ok (.conflict _) => .error (.var .nonceLocked)
  | .ok .serverError =>
    .error (.new ("unexpected status code from blind bank: %d for " ++ endpoint) [.int 500])

/-- The error of a request, wrapped. -/
def wrapped (endpoint format : String) (result : Except Failure Reply) : Except Err Bytes :=
  match doRequest endpoint result with
  | .error e => .error (.errorf format [] e)
  | .ok body => .ok body

end LockApi

/-- A call of one of the methods of the client. -/
inductive LockerCall where
  | lockNonce (nonce : Nonce)
  | consumeNonce (nonce : Nonce) (ticket : Bytes)
  | releaseNonce (nonce : Nonce) (ticket : Bytes)
  deriving DecidableEq

/-- What the locker reads when it processes a request. -/
structure LockInput where
  now : Int
  rand : Except Err (Vector UInt8 8)

/-- A state of a call and of the locker. -/
abbrev LockCall := Rpc.Call InMem.NonceLocker LockApi.Reply Failure

abbrev LockAct := Rpc.Act InMem.NonceLocker LockInput Failure

namespace LockerCall

def nonce : LockerCall → Nonce
  | lockNonce nonce | consumeNonce nonce _ | releaseNonce nonce _ => nonce

def serve {L : Type} (call : LockerCall) (locker : TicketLockerContract L) (l : L) :
    LockApi.Reply × L :=
  match call with
  | lockNonce nonce => LockApi.lockHandler locker ⟨some nonce.marshalProto⟩ l
  | consumeNonce nonce ticket =>
    LockApi.consumeHandler locker ⟨some nonce.marshalProto, ticket⟩ l
  | releaseNonce nonce ticket =>
    LockApi.releaseHandler locker ⟨some nonce.marshalProto, ticket⟩ l

def protocol (call : LockerCall) :
    Rpc.Protocol InMem.NonceLocker LockInput LockApi.Reply Failure :=
  doWith LockApi.Reply.statusCode fun i l => call.serve (InMem.ticketLocker i.now i.rand) l

/-- What the method returns at the end of `DoWith`; any body stands for a nil error of the other two
methods. -/
def clientReturn : LockerCall → Except Failure LockApi.Reply → Except Err Bytes
  | lockNonce _ => LockApi.wrapped "/lock" "failed to send lock request: %w"
  | consumeNonce _ _ => LockApi.wrapped "/consume" "failed to send consume request: %w"
  | releaseNonce _ _ => LockApi.wrapped "/release" "failed to send release request: %w"

/-- The error that the call has returned. -/
def reported (call : LockerCall) (c : LockCall) : Option Err :=
  match c.caller with
  | .returned result =>
    match call.clientReturn result with
    | .error e => some e
    | .ok _ => none
  | _ => none

/-! ## What a call is for -/

/-- The nonce is free, or the ticket is the one of its lock. -/
def Ready : LockerCall → InMem.NonceLocker → Prop
  | lockNonce nonce, l => nonce.nonce.length = nonceLen ∧ l.status nonce.nonce = .free
  | consumeNonce nonce ticket, l | releaseNonce nonce ticket, l =>
    l.status nonce.nonce = .locked ticket

/-- The locker has executed the call. -/
def Done : LockerCall → InMem.NonceLocker → Prop
  | lockNonce nonce, l => ∃ ticket, l.status nonce.nonce = .locked ticket
  | consumeNonce nonce _, l => l.status nonce.nonce = .consumed
  | releaseNonce nonce _, l => l.status nonce.nonce = .free

/-- The method has returned what the locker has done: the ticket of the lock that is held, or no
error. -/
def Succeeds (call : LockerCall) (result : Except Err Bytes) (l : InMem.NonceLocker) : Prop :=
  match call with
  | lockNonce nonce => ∃ ticket, result = .ok ticket ∧ l.status nonce.nonce = .locked ticket
  | consumeNonce _ _ | releaseNonce _ _ => (∃ body, result = .ok body) ∧ call.Done l

/-- The nonce is not expired and the locker can draw a ticket. -/
def Works : LockerCall → LockInput → Prop
  | lockNonce nonce, i => nonce.isExpiredAt i.now = false ∧ ∃ ticketB, i.rand = .ok ticketB
  | consumeNonce _ _, _ | releaseNonce _ _, _ => True

/-- No other client touches the nonce, which is not expired. -/
def Undisturbed (call : LockerCall) : LockAct → Prop
  | .serve _ i => call.Works i
  | .other f => ∀ l, (f l).status call.nonce.nonce = l.status call.nonce.nonce
  | _ => True

/-- The client gives up an attempt when the locker has executed the call, or the locker executes a
request that the client has given up. -/
def Wastes (call : LockerCall) : LockCall → LockAct → Prop := Rpc.Call.Wastes call.Ready call.Done

end LockerCall

end Anonpay
