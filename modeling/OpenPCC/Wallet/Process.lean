import OpenPCC.Wallet.Account

/-!
# Transfers (`anonpay/wallet/internal/transfer/transfer.go`, `source.go`, `wallet.go`)

`process` takes credits out of a `Withdrawable` and puts them into a `Depositable`. Both act on a
state `S` that holds whatever they refer to; a withdrawal that panics is `none`. The transfers of
the wallet log with the `NoopLogger`, which never returns an error.
-/

namespace Wallet

open Go Anonpay

variable {S B : Type}

inductive CreditOrigin where
  | source | blindbank | user
  deriving DecidableEq

/-- The origin as an operand of a format verb. -/
def CreditOrigin.arg : CreditOrigin → Arg
  | source => .str "source".toUTF8.toList
  | blindbank => .str "blind bank".toUTF8.toList
  | user => .str "user".toUTF8.toList

structure Withdrawable (S : Type) where
  origin : CreditOrigin
  withdraw : (transferID : Bytes) → Withdrawal → S →
    Option (Except WithdrawErr (List BlindedCredit × Int) × S)

structure Depositable (S : Type) where
  allowedOrigins : List CreditOrigin
  deposit : (transferID : Bytes) → List BlindedCredit → S → Option Err × S

structure Intent (S : Type) where
  withdrawal : Withdrawal
  src : Withdrawable S
  dst : Depositable S

/-- `errors.As(err, &InsufficientBalanceError{})`. -/
def hasInsufficientBalance : Err → Bool
  | .insufficientBalance _ => true
  | .errorf _ _ e | .join1 e | .inputError e | .verificationError e => hasInsufficientBalance e
  | .join2 e e' => hasInsufficientBalance e || hasInsufficientBalance e'
  | .var _ | .new _ _ => false

def Intent.isExpectedError (i : Intent S) (err : WithdrawErr) : Bool :=
  i.withdrawal.optimistic &&
    match err with
    | .creditsNotAvailable _ _ _ | .insufficientBalance _ _ => true
    | .withdrawal _ e | .other e => hasInsufficientBalance e

structure Transfer where
  id : Bytes
  roundingGain : Int
  amounts : List Value

/-- The errors of `Process`: an expected error of an optimistic withdrawal, an unexpected one, or
another error. -/
inductive ProcessErr where
  | expected (err : WithdrawErr)
  | withdraw (err : WithdrawErr)
  | other (err : Err)

/-- What a transfer reads from outside: the id, and the errors of the delays before and after the
withdrawal. -/
structure ProcessEnv where
  id : Except Err Bytes
  delayBefore : Option Err := none
  delayBetween : Option Err := none

/-- The loop over the withdrawn credits: the first two neighbours with different amounts. -/
def unequalAmounts : List BlindedCredit → Option (Int × Int)
  | prev :: cred :: credits =>
    if prev.value.amountOrZero ≠ cred.value.amountOrZero then
      some (prev.value.amountOrZero, cred.value.amountOrZero)
    else unequalAmounts (cred :: credits)
  | _ => none

/-- The part of `Process` after the withdrawal. -/
def depositWithdrawn (env : ProcessEnv) (id : Bytes) (dst : Depositable S)
    (withdrew : List BlindedCredit) (roundingGain : Int) (s : S) :
    Except ProcessErr Transfer × S :=
  match unequalAmounts withdrew with
  | some (prev, current) =>
    (.error (.other (.join1 (.new
      "multiple withdrawn credits are expected to have the same value, but got %d and %d"
      [.int prev, .int current]))), s)
  | none =>
    match env.delayBetween with
    | some e => (.error (.other (.errorf "failed to delay after withdraw: %w" [] (.join1 e))), s)
    | none =>
      match dst.deposit id withdrew s with
      | (some e, s) => (.error (.other (.errorf "failed to withdraw: %w" [] (.join1 e))), s)
      | (none, s) => (.ok ⟨id, roundingGain, withdrew.map (·.value)⟩, s)

def process (env : ProcessEnv) (intent : Intent S) (s : S) :
    Option (Except ProcessErr Transfer × S) :=
  if intent.src.origin ∉ intent.dst.allowedOrigins then
    some (.error (.other (.new "%v is not an allowed origin for deposit target allowed (%v)"
      (intent.src.origin.arg :: intent.dst.allowedOrigins.map (·.arg)))), s)
  else
    match env.id with
    | .error e => some (.error (.other (.errorf "failed to generate id: %w" [] e)), s)
    | .ok id =>
      match env.delayBefore with
      | some e => some (.error (.other (.errorf "failed to delay before withdraw: %w" [] e)), s)
      | none =>
        match intent.src.withdraw id intent.withdrawal s with
        | none => none
        | some (.error err, s) =>
          if intent.isExpectedError err then some (.error (.expected err), s)
          else some (.error (.withdraw err), s)
        | some (.ok (withdrew, roundingGain), s) =>
          some (depositWithdrawn env id intent.dst withdrew roundingGain s)

/-! ## The source -/

/-- The answers of a `SourceService`. -/
structure SourceService where
  withdraw : (id : Bytes) → Value → Except Err BlindedCredit
  deposit : (id : Bytes) → List BlindedCredit → Option Err

def sourceWithdraw (svc : SourceService) (id : Bytes) (w : Withdrawal) :
    Except WithdrawErr (List BlindedCredit × Int) :=
  if w = fullWithdrawal then .error (.other (.new "can't do a full withdrawal from source" []))
  else if w.credits ≠ 1 then
    .error (.other (.new
      "can only withdraw a single credit from source, attempting to withdraw %d" [.int w.credits]))
  else
    match svc.withdraw id w.amount with
    | .error e => .error (.other (.errorf "failed to withdraw from source service: %w" [] e))
    | .ok credit => .ok ([credit], 0)

/-- A `Source` as both ends of a transfer. -/
def sourceWithdrawable (svc : SourceService) : Withdrawable S where
  origin := .source
  withdraw id w s := some (sourceWithdraw svc id w, s)

def sourceDepositable (svc : SourceService) : Depositable S where
  allowedOrigins := [.source, .blindbank]
  deposit id credits s := (svc.deposit id credits, s)

/-! ## Payments -/

structure PaymentRequest where
  desiredAmount : Value
  stack : CreditStack
  deriving DecidableEq

/-- `NewPaymentRequest`: the stack takes one credit. -/
def newPaymentRequest (desiredAmount : Value) : PaymentRequest :=
  ⟨desiredAmount, { maxCredits := 1 }⟩

/-- What a `deposit` sends to the caller of `BeginPayment`. -/
structure PaymentResponse where
  credit : Option BlindedCredit
  err : Option Err

/-- The response and the request after it; the error of the response is returned too. -/
def PaymentRequest.deposit (r : PaymentRequest) (transferID : Bytes) (creds : List BlindedCredit) :
    PaymentResponse × PaymentRequest :=
  match r.stack.deposit transferID creds with
  | .error e => (⟨creds.head?, some e⟩, r)
  | .ok stack => (⟨creds.head?, none⟩, { r with stack })

structure PaymentResult where
  unspend : AnyCredit
  exchanged : Option BlindedCredit := none
  deriving DecidableEq

/-- `NewPaymentResult` of a credit that is not nil. -/
def newPaymentResult (credit : AnyCredit) : Except Err PaymentResult :=
  match credit.value.amount with
  | .error e => .error (.errorf "not a regular credit: %w" [] e)
  | .ok _ => .ok { unspend := credit }

namespace PaymentResult

variable (d : PaymentResult)

def balance : Int := d.unspend.value.amountOrZero

def withdraw (bb : BlindBank B) (draw : Draw) (id : Bytes) (w : Withdrawal) (b : B) :
    Except WithdrawErr (List BlindedCredit × Int) × PaymentResult × B :=
  if w ≠ fullWithdrawal ∧
      (w.credits ≠ 1 ∨ w.amount.amountOrZero ≠ d.unspend.value.amountOrZero) then
    (.error (.creditsNotAvailable w 0 d.unspend.value), d, b)
  else if d.exchanged.isSome then
    (.error (.withdrawal w (.new "payment result already withdrawn" [])), d, b)
  else
    match bb.exchange id draw d.unspend b with
    | (.error e, b) => (.error (.other (.errorf "failed to exchange credit: %w" [] e)), d, b)
    | (.ok exchanged, b) => (.ok ([exchanged], 0), { d with exchanged := some exchanged }, b)

end PaymentResult

end Wallet
