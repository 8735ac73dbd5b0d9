import OpenPCC.Anonpay.BlindBank
import OpenPCC.Anonpay.Proto

/-!
# A blind bank over HTTP (`anonpay/banking/httpapi/client.go`, `server.go`)

The server calls a bank with what it decodes from a request, and the client turns the response into
the result of its own method. Messages and responses arrive as they were sent, so a handler is a
function from a request message to a response, and the client over the server is a bank again
(`HttpApi.bank`). A response with status 500 is not retried here.
-/

namespace Anonpay

open Go

variable {B : Type}

/-- `errors.As(err, &inputErr)`. -/
def isInputError : Err → Bool
  | .inputError _ => true
  | .errorf _ _ e | .join1 e | .verificationError e => isInputError e
  | .join2 e e' => isInputError e || isInputError e'
  | .var _ | .new _ _ | .insufficientBalance _ => false

def accountTokenLength : Nat := 32

def accountTokenFromSecretBytes (b : Bytes) : Except Err Bytes :=
  if b.length ≠ accountTokenLength then
    .error (.new "invalid account token length %d" [.int b.length])
  else .ok b

namespace Pb

structure BlindSignRequest where
  value : Option Currency
  blindedMessage : Bytes

structure BatchWithdrawRequest where
  requests : List BlindSignRequest
  accountToken : Option Bytes

structure BatchWithdrawResponse where
  balance : Int
  blindSignatures : List Bytes
  deriving DecidableEq

structure WithdrawFullUnblindedRequest where
  accountToken : Option Bytes

structure WithdrawFullUnblindedResponse where
  credit : Option Credit

structure DepositRequest where
  accountToken : Option Bytes
  credit : Option Credit

structure DepositResponse where
  balance : Int

structure ExchangeRequest where
  credit : Option Credit
  blindedMessage : Bytes

structure ExchangeResponse where
  blindSignature : Bytes

structure BalanceRequest where
  accountToken : Option Bytes

structure BalanceResponse where
  balance : Int

end Pb

namespace HttpApi

/-- A response: a message with status 200, or the statuses 400 and 500. -/
inductive Reply (α : Type) where
  | ok (message : α)
  | badRequest (msg : String)
  | serverError
  deriving DecidableEq

def Reply.statusCode {α : Type} : Reply α → Nat
  | ok _ => 200
  | badRequest _ => 400
  | serverError => 500

/-! ## The server -/

section

variable (bank : BlindBankContract B)

def writeErrorResponse {α : Type} (err : Err) : Reply α :=
  if isInputError err then .badRequest "invalid input" else .serverError

/-- The check of the account token that three of the handlers make. -/
def requireAccount {α : Type} (accountToken : Option Bytes) (next : Bytes → B → Reply α × B)
    (b : B) : Reply α × B :=
  match accountToken with
  | none => (.badRequest "missing account token", b)
  | some token =>
    match accountTokenFromSecretBytes token with
    | .error _ => (.badRequest "invalid account", b)
    | .ok account => next account b

/-- A missing token is one of length zero. -/
def depositHandler (message : Pb.DepositRequest) (b : B) : Reply Pb.DepositResponse × B :=
  match accountTokenFromSecretBytes (message.accountToken.getD []) with
  | .error _ => (.badRequest "invalid account", b)
  | .ok account =>
    match BlindedCredit.unmarshalProto message.credit with
    | .error _ => (.badRequest "failed to unmarshal credit", b)
    | .ok credit =>
      match bank.deposit [] account credit b with
      | (.error e, b) => (writeErrorResponse e, b)
      | (.ok balance, b) => (.ok ⟨balance⟩, b)

/-- The loop that decodes the requests of a batch. -/
def unmarshalRequests : List Pb.BlindSignRequest → Except Err (List BlindSignRequest)
  | [] => .ok []
  | request :: requests =>
    match Value.unmarshalProto request.value with
    | .error e => .error e
    | .ok value =>
      match unmarshalRequests requests with
      | .error e => .error e
      | .ok rest => .ok (⟨value, request.blindedMessage⟩ :: rest)

def withdrawBatchHandler (batch : Pb.BatchWithdrawRequest) (b : B) :
    Reply Pb.BatchWithdrawResponse × B :=
  requireAccount batch.accountToken (fun account b =>
    match unmarshalRequests batch.requests with
    | .error _ => (.badRequest "failed to unmarshal value", b)
    | .ok batchRequests =>
      match bank.withdrawBatch [] account batchRequests b with
      | (.error e, b) => (writeErrorResponse e, b)
      | (.ok (balance, signatures), b) => (.ok ⟨balance, signatures⟩, b)) b

def withdrawFullUnblindedHandler (req : Pb.WithdrawFullUnblindedRequest) (b : B) :
    Reply Pb.WithdrawFullUnblindedResponse × B :=
  requireAccount req.accountToken (fun account b =>
    match bank.withdrawFullUnblinded [] account b with
    | (.error e, b) => (writeErrorResponse e, b)
    | (.ok credit, b) => (.ok ⟨some credit.marshalProto⟩, b)) b

/-- The value to sign is the one of the credit, which becomes a blinded one. -/
def exchangeHandler (message : Pb.ExchangeRequest) (b : B) : Reply Pb.ExchangeResponse × B :=
  match BlindedCredit.unmarshalProto message.credit with
  | .error _ => (.badRequest "failed to unmarshal value", b)
  | .ok credit =>
    let request : BlindSignRequest := ⟨credit.value, message.blindedMessage⟩
    match bank.exchange [] (.blinded credit) request b with
    | (.error e, b) => (writeErrorResponse e, b)
    | (.ok signature, b) => (.ok ⟨signature⟩, b)

def balanceHandler (req : Pb.BalanceRequest) (b : B) : Reply Pb.BalanceResponse × B :=
  requireAccount req.accountToken (fun account b =>
    match bank.balance account b with
    | (.error e, b) => (writeErrorResponse e, b)
    | (.ok balance, b) => (.ok ⟨balance⟩, b)) b

end

/-! ## The client -/

/-- `doRequest`: the message of the response. -/
def doRequest {α : Type} (endpoint : String) : Reply α → Except Err α
  | .ok message => .ok message
  | .badRequest _ =>
    .error (.inputError
      (.new ("unexpected status code from blind bank: %d for " ++ endpoint) [.int 400]))
  | .serverError =>
    .error (.new ("unexpected status code from blind bank: %d for " ++ endpoint) [.int 500])

def withdrawRequest (account : Bytes) (reqs : List BlindSignRequest) : Pb.BatchWithdrawRequest where
  requests := reqs.map fun req => ⟨some req.value.marshalProto, req.blindedMessage⟩
  accountToken := some account

/-- What `WithdrawBatch` makes of the response. -/
def withdrawResult (reqs : List BlindSignRequest) (reply : Reply Pb.BatchWithdrawResponse) :
    Except Err (Int × List Bytes) :=
  match doRequest "/withdraw" reply with
  | .error e => .error (.errorf "failed to withdraw batch: %w" [] e)
  | .ok resp =>
    if resp.blindSignatures.length ≠ reqs.length then
      .error (.new "need %d blind signatures, but got %d in response"
        [.int reqs.length, .int resp.blindSignatures.length])
    else .ok (resp.balance, resp.blindSignatures)

/-- What `WithdrawFullUnblinded` makes of the response. -/
def withdrawFullResult (reply : Reply Pb.WithdrawFullUnblindedResponse) :
    Except Err UnblindedCredit :=
  match doRequest "/withdraw-full" reply with
  | .error e => .error (.errorf "failed to withdraw all: %w" [] e)
  | .ok resp =>
    match UnblindedCredit.unmarshalProto resp.credit with
    | .error e => .error (.errorf "error unmarshalling withdraw all credit: %w" [] e)
    | .ok credit => .ok credit

/-- A field of the response, or the wrapped error. -/
def fieldOf {α β : Type} (endpoint format : String) (get : α → β) (reply : Reply α) :
    Except Err β :=
  match doRequest endpoint reply with
  | .error e => .error (.errorf format [] e)
  | .ok resp => .ok (get resp)

/-- The client over a server of `bank`. The transfer ids are not sent. -/
def bank (bank : BlindBankContract B) : BlindBankContract B where
  withdrawBatch _ account reqs b :=
    let (reply, b) := withdrawBatchHandler bank (withdrawRequest account reqs) b
    (withdrawResult reqs reply, b)
  withdrawFullUnblinded _ account b :=
    let (reply, b) := withdrawFullUnblindedHandler bank ⟨some account⟩ b
    (withdrawFullResult reply, b)
  deposit _ account credit b :=
    let (reply, b) := depositHandler bank ⟨some account, some credit.marshalProto⟩ b
    (fieldOf "/deposit" "failed to deposit: %w" (·.balance) reply, b)
  exchange _ credit request b :=
    let (reply, b) := exchangeHandler bank ⟨some credit.marshalProto, request.blindedMessage⟩ b
    (fieldOf "/exchange" "failed to exchange: %w" (·.blindSignature) reply, b)
  balance account b :=
    let (reply, b) := balanceHandler bank ⟨some account⟩ b
    (fieldOf "/balance" "failed to exchange: %w" (·.balance) reply, b)

end HttpApi

/-! ## Calls of a bank -/

inductive BankCall where
  | withdrawBatch (transferID account : Bytes) (reqs : List BlindSignRequest)
  | withdrawFullUnblinded (transferID account : Bytes)
  | deposit (transferID account : Bytes) (credit : BlindedCredit)
  | exchange (transferID : Bytes) (credit : AnyCredit) (request : BlindSignRequest)
  | balance (account : Bytes)
  deriving DecidableEq

inductive BankResult where
  | signatures (balance : Int) (blindSignatures : List Bytes)
  | credit (credit : UnblindedCredit)
  | balance (balance : Int)
  | signature (blindSignature : Bytes)
  deriving DecidableEq

def BlindBankContract.call (bank : BlindBankContract B) (c : BankCall) (b : B) :
    Except Err BankResult × B :=
  match c with
  | .withdrawBatch transferID account reqs =>
    let (r, b) := bank.withdrawBatch transferID account reqs b
    (r.map fun (balance, blindSignatures) => .signatures balance blindSignatures, b)
  | .withdrawFullUnblinded transferID account =>
    let (r, b) := bank.withdrawFullUnblinded transferID account b
    (r.map .credit, b)
  | .deposit transferID account credit =>
    let (r, b) := bank.deposit transferID account credit b
    (r.map .balance, b)
  | .exchange transferID credit request =>
    let (r, b) := bank.exchange transferID credit request b
    (r.map .signature, b)
  | .balance account =>
    let (r, b) := bank.balance account b
    (r.map .balance, b)

/-- The result is an `anonpay.InputError`. -/
def rejects {α : Type} : Except Err α → Bool
  | .error e => isInputError e
  | .ok _ => false

/-- The two return the same result, or both an error, and an `anonpay.InputError` together. They
leave the same bank. -/
def SameAnswer (r r' : Except Err BankResult × B) : Prop :=
  (∀ result, r.1 = .ok result ↔ r'.1 = .ok result) ∧ rejects r.1 = rejects r'.1 ∧ r.2 = r'.2

/-! ## What the messages carry -/

/-- What a message keeps of a value: a special value with the top bit set becomes a regular one. -/
def Value.received (v : Value) : Value := ⟨v.shift && decide (v.value < 256), v.value, v.top⟩

def BlindSignRequest.received (req : BlindSignRequest) : BlindSignRequest :=
  ⟨req.value.received, req.blindedMessage⟩

/-- The value is not a special one with the top bit set. -/
def Value.Sent (v : Value) : Prop := v.shift = true → v.value < 256

/-- The parts of a credit that a message carries. -/
def SentCredit (value : Value) (nonce : Nonce) (signature : Bytes) : Prop :=
  value.Sent ∧ nonce.nonce.length = nonceLen ∧ nonce.unsafeIncrement = false ∧ signature ≠ []

/-- The server makes the call with the same arguments. -/
def BankCall.Sent : BankCall → Prop
  | .withdrawBatch transferID account reqs =>
    transferID = [] ∧ account.length = accountTokenLength ∧ ∀ req ∈ reqs, req.value.Sent
  | .withdrawFullUnblinded transferID account =>
    transferID = [] ∧ account.length = accountTokenLength
  | .deposit transferID account credit =>
    transferID = [] ∧ account.length = accountTokenLength ∧
      SentCredit credit.value credit.nonce credit.signature
  | .exchange transferID credit request =>
    transferID = [] ∧ (∃ c, credit = .blinded c) ∧
      SentCredit credit.value credit.nonce credit.signature ∧ request.value = credit.value
  | .balance account => account.length = accountTokenLength

/-- The client accepts the result: there is a signature for each request, and the message carries
the credit. -/
def BankResult.Sent : BankCall → BankResult → Prop
  | .withdrawBatch _ _ reqs, .signatures _ blindSignatures =>
    blindSignatures.length = reqs.length
  | _, .credit c => SentCredit c.value c.nonce c.signature
  | _, _ => True

end Anonpay
