import OpenPCC.Anonpay.Exact
import OpenPCC.Auth.Credentials
import OpenPCC.Lib.Trace
import OpenPCC.Wallet.Account

/-!
# The auth client (`auth/client/client.go`)

`doRetryingCreditRequest` gets a credit from the auth server. The response also carries the badge
of the user, which the client keeps; `getBadge` hands it out, after a request for an attestation
token if there is none yet.

What a request meets outside is a `CreditEnv`. The part of a request that holds `badgeMu` is
`cacheBadge`, what comes before it is `exchange`.
-/

namespace Auth

open Go Anonpay Wallet

namespace Pb

/-- `protos.AuthWithdrawalResponse`. -/
structure AuthWithdrawalResponse where
  blindSignature : Bytes
  badge : Option Badge
  deriving DecidableEq

end Pb

/-- A response that `httpretry.DoWith` returned: what the decoder makes of its body, and the errors
that `httpfmt.ParseBodyAsError` finds in it. -/
structure Response where
  statusCode : Int
  body : Except Err Pb.AuthWithdrawalResponse
  bodyErr : Err

/-- What a call of `doRetryingCreditRequest` meets. -/
structure CreditEnv where
  draw : Draw
  /-- the error of `proto.Marshal` -/
  marshal : Option Err
  /-- the error of `http.NewRequestWithContext` -/
  newRequest : Option Err
  /-- `httpretry.DoWith`, with the retries on 5xx and 429 -/
  doWith : Except Err Response

structure Client where
  payee : Issuer
  badge : Option Badge
  /-- the responses that brought a credit so far -/
  received : List Pb.AuthWithdrawalResponse

/-- `New`, with the currency key of the remote configuration. -/
def newClient (payee : Issuer) : Client := ⟨payee, none, []⟩

/-- `ahttp.AttestationCurrencyValue`, which is `MustSpecial(0)`. -/
def attestationCurrencyValue : Value := { Value.ofNat 0 with shift := true }

example : mustSpecial 0 = .ok attestationCurrencyValue := rfl

/-- The loop of `verifyBadge`, with the models seen so far. -/
def verifyModels (modelsSeen : List Bytes) : List Bytes → Option Err
  | [] => none
  | model :: models =>
    if model ∈ modelsSeen then
      some (.new "found duplicate model in Badge credentials: %s" [.str model])
    else verifyModels (model :: modelsSeen) models

def verifyBadge (badge : Badge) : Option Err := verifyModels [] badge.credentials.models

/-- `credentialing.Badge{}`. -/
def emptyBadge : Badge := ⟨⟨[]⟩, []⟩

namespace Client

/-- `doRetryingCreditRequest` up to the credit. The header of a request that could not be built is
set before its error is looked at. -/
def exchange (c : Client) (value : Value) (env : CreditEnv) :
    Outcome (BlindedCredit × Pb.AuthWithdrawalResponse) :=
  match beginBlindedCredit c.payee env.draw value with
  | .error err => .err (.errorf "error creating blinded credit: %w" [] err)
  | .ok unsignedCredit =>
    match env.marshal, env.newRequest, env.doWith with
    | some err, _, _ => .err (.errorf "error marshalling blinded request: %w" [] err)
    | none, some _, _ => .panic
    | none, none, .error err => .err (.errorf "credit signing request failed: %w" [] err)
    | none, none, .ok resp =>
      if resp.statusCode ≠ 200 then
        if resp.statusCode = 429 then .err (.insufficientBalance (-1))
        else .err (.join2 (.new "unexpected status code %d" [.int resp.statusCode]) resp.bodyErr)
      else
        match resp.body with
        | .error err => .err (.errorf "error reading signed blinded credit: %w" [] err)
        | .ok withdrawalResponse =>
          match unsignedCredit.finalize c.payee withdrawalResponse.blindSignature with
          | .error err => .err (.errorf "failed to finalize blinded credit: %w" [] err)
          | .ok credit => .ok (credit, withdrawalResponse)

/-- The part of `doRetryingCreditRequest` under the lock. -/
def cacheBadge (c : Client) (credit : BlindedCredit) (badge : Option Pb.Badge) :
    Outcome BlindedCredit × Client :=
  match c.badge with
  | some _ => (.ok credit, c)
  | none =>
    -- the badge is decoded into the field of the client
    match emptyBadge.unmarshalProto badge with
    | (b, some err) =>
      (.err (.errorf "failed to parse badge: %w" [] err), { c with badge := some b })
    | (b, none) =>
      match verifyBadge b with
      | some err =>
        (.err (.errorf "failed to verify badge: %w" [] err), { c with badge := none })
      | none => (.ok credit, { c with badge := some b })

/-- The response is added to those that brought a credit. -/
def receive (c : Client) (resp : Pb.AuthWithdrawalResponse) : Client :=
  { c with received := c.received ++ [resp] }

def doRetryingCreditRequest (c : Client) (value : Value) (env : CreditEnv) :
    Outcome BlindedCredit × Client :=
  match c.exchange value env with
  | .err err => (.err err, c)
  | .panic => (.panic, c)
  | .ok (credit, resp) => (c.receive resp).cacheBadge credit resp.badge

def getAttestationToken (c : Client) (env : CreditEnv) : Outcome BlindedCredit × Client :=
  c.doRetryingCreditRequest attestationCurrencyValue env

def getBadge (c : Client) (env : CreditEnv) : Outcome Badge × Client :=
  match c.badge with
  | some badge => (.ok badge, c)
  | none =>
    match c.getAttestationToken env with
    | (.err err, c) => (.err err, c)
    | (.panic, c) => (.panic, c)
    | (.ok _, c) => (Outcome.deref c.badge, c)

end Client

/-! ## Runs -/

/-- A call of the client, with what it meets. -/
inductive Call where
  | creditRequest (value : Value) (env : CreditEnv)
  | getBadge (env : CreditEnv)

namespace Client

def step (c : Client) : Call → Client
  | .creditRequest value env => (c.doRetryingCreditRequest value env).2
  | .getBadge env => (c.getBadge env).2

/-- The response that brings a credit in this call, if it sends a request. -/
def receives (c : Client) : Call → Option Pb.AuthWithdrawalResponse
  | .creditRequest value env =>
    match c.exchange value env with
    | .ok (_, resp) => some resp
    | _ => none
  | .getBadge env =>
    match c.badge, c.exchange attestationCurrencyValue env with
    | none, .ok (_, resp) => some resp
    | _, _ => none

end Client

/-- The response has a badge, its credentials decode to those of `b`, and `b` is verified. -/
def Pb.AuthWithdrawalResponse.Vouches (resp : Pb.AuthWithdrawalResponse)
    (b : Auth.Badge) : Prop :=
  ∃ badge, resp.badge = some badge ∧ emptyBadge.unmarshalProto (some badge) = (b, none) ∧
    verifyBadge b = none

/-- The response has a badge whose models can be decoded. -/
def Pb.AuthWithdrawalResponse.Readable (resp : Pb.AuthWithdrawalResponse) : Prop :=
  ∃ badge, resp.badge = some badge ∧
    ∃ creds, (Credentials.unmarshalProto badge.credentials).result = .ok creds

namespace Client

/-- The cached badge was received and verified. -/
def Vouched (c : Client) : Prop := ∀ b, c.badge = some b → ∃ resp ∈ c.received, resp.Vouches b

/-- While no badge is cached, a response that brings a credit has a badge that can be decoded. -/
def Reads (c : Client) (call : Call) : Prop :=
  c.badge = none → ∀ resp, c.receives call = some resp → resp.Readable

/-- If `GetBadge` returns a badge, it was received and verified. It panics only where its request
does, never on a badge that is missing. -/
def HandsOut (c : Client) : Call → Prop
  | .creditRequest _ _ => True
  | .getBadge env =>
    (∀ b, (c.getBadge env).1 = .ok b →
      ∃ resp ∈ (c.getBadge env).2.received, resp.Vouches b) ∧
    ((c.getBadge env).1 = .panic → env.newRequest.isSome)

end Client

end Auth
