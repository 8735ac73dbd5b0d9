import OpenPCC.Anonpay.Credit

/-!
# Credits as protobuf messages (`credit.go`, `unblinded_credit.go`, `nonce.go`, `currency/value.go`)

A field that is not set is `none`, and so is a nil message. A byte slice that is nil is the empty
one here, which the messages hold as a set field: neither passes as a nonce or as a signature.
-/

namespace Anonpay

open Go

namespace Pb

/-- `protos.Currency`. -/
structure Currency where
  currency : Option Bytes
  deriving DecidableEq

/-- `protos.Nonce`, with the seconds of its timestamp. -/
structure Nonce where
  timestamp : Option Int
  nonce : Option Bytes
  deriving DecidableEq

/-- `protos.Credit`. -/
structure Credit where
  value : Option Currency
  nonce : Option Nonce
  signature : Option Bytes
  deriving DecidableEq

end Pb

def Value.marshalProto (c : Value) : Pb.Currency := ⟨some c.blindBytes⟩

def Value.unmarshalProto (pbc : Option Pb.Currency) : Except Err Value :=
  match pbc.bind (·.currency) with
  | none => .error (.new "missing currency" [])
  | some b => parseCurrencyFromBlindBytes b

/-- `UnsafeIncrement` is not part of the message. -/
def Nonce.marshalProto (n : Nonce) : Pb.Nonce := ⟨some n.timestamp, some n.nonce⟩

def Nonce.unmarshalProto (pbn : Option Pb.Nonce) : Except Err Nonce :=
  match pbn with
  | none => .error (.new "nil protobuf" [])
  | some ⟨some timestamp, some b⟩ =>
    if b.length ≠ nonceLen then
      .error (.errorf "want nonce of length %d, but got %d: %w" [.int 16, .int b.length]
        (.new "incorrect length for nonce" []))
    else .ok ⟨timestamp, b, false⟩
  | some _ => .error (.new "incomplete protobuf, needs both nonce and timestamp" [])

/-! ## Both kinds of credits -/

def marshalCredit (value : Value) (nonce : Nonce) (signature : Bytes) : Pb.Credit :=
  ⟨some value.marshalProto, some nonce.marshalProto, some signature⟩

def unmarshalCredit (credit : Option Pb.Credit) : Except Err (Value × Nonce × Bytes) :=
  match credit with
  | none => .error (.new "nil protobuf" [])
  | some credit =>
    match credit.signature with
    | none => .error (.new "missing signature" [])
    | some [] => .error (.new "zero-len signature" [])
    | some sig =>
      match Value.unmarshalProto credit.value with
      | .error e => .error (.errorf "failed to unmarshal value: %w" [] e)
      | .ok val =>
        match Nonce.unmarshalProto credit.nonce with
        | .error e => .error (.errorf "failed to unmarshal nonce: %w" [] e)
        | .ok nonce => .ok (val, nonce, sig)

def BlindedCredit.marshalProto (c : BlindedCredit) : Pb.Credit :=
  marshalCredit c.value c.nonce c.signature

def BlindedCredit.unmarshalProto (credit : Option Pb.Credit) : Except Err BlindedCredit :=
  (unmarshalCredit credit).map fun (val, nonce, sig) => ⟨val, nonce, sig⟩

def UnblindedCredit.marshalProto (c : UnblindedCredit) : Pb.Credit :=
  marshalCredit c.value c.nonce c.signature

def UnblindedCredit.unmarshalProto (credit : Option Pb.Credit) : Except Err UnblindedCredit :=
  (unmarshalCredit credit).map fun (val, nonce, sig) => ⟨val, nonce, sig⟩

def AnyCredit.marshalProto (c : AnyCredit) : Pb.Credit := marshalCredit c.value c.nonce c.signature

end Anonpay
