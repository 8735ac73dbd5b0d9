import OpenPCC.Anonpay.BlindBank
import OpenPCC.Wallet.Transfer

/-!
# Bank accounts of the wallet (`anonpay/wallet/internal/transfer/blindbank.go`)

`BlindBank` adapts the contract of a bank to the transfers: it prepares the requests for new credits
and finalizes them with the signatures of the bank. `Account` is the local reference of an account,
with the balance that the wallet believes it to have.

What a call draws at random, and the result of a delay, is an argument.
-/

namespace Wallet

open Go Anonpay

variable {B : Type}

/-! ## New credits -/

/-- `BlindSignState`: an open blind sign request. -/
structure BlindSignState where
  value : Value
  blindedMessage : Bytes
  nonce : Nonce
  state : Bytes
  deriving DecidableEq

/-- `Payee.BeginBlindedCredit`; the payee verifies with the key of the issuer. -/
def beginBlindedCredit (payee : Issuer) (d : Draw) (value : Value) : Except Err BlindSignState :=
  match payee.newUnsignedCredit d value with
  | .error e => .error e
  | .ok (blindedMessage, nonce, state) => .ok ⟨value, blindedMessage, nonce, state⟩

def BlindSignState.request (s : BlindSignState) : BlindSignRequest := ⟨s.value, s.blindedMessage⟩

/-- `Finalize`, which is called once. -/
def BlindSignState.finalize (payee : Issuer) (s : BlindSignState) (blindSignature : Bytes) :
    Except Err BlindedCredit :=
  match payee.scheme.finalize s.state blindSignature with
  | .error e => .error (.errorf "failed to finalize: %w" [] e)
  | .ok signature => .ok ⟨s.value, s.nonce, signature⟩

/-- The first loop of `WithdrawBatch`. -/
def beginCredits (payee : Issuer) (value : Value) : List Draw → Except Err (List BlindSignState)
  | [] => .ok []
  | d :: ds =>
    match beginBlindedCredit payee d value with
    | .error e => .error (.errorf "failed to prepare new credit: %w" [] e)
    | .ok s =>
      match beginCredits payee value ds with
      | .error e => .error e
      | .ok states => .ok (s :: states)

/-- The second loop of `WithdrawBatch`. -/
def finalizeCredits (payee : Issuer) :
    List (BlindSignState × Bytes) → Except Err (List BlindedCredit)
  | [] => .ok []
  | (s, blindSignature) :: rest =>
    match s.finalize payee blindSignature with
    | .error e => .error (.errorf "failed to finalize credit: %w" [] e)
    | .ok credit =>
      match finalizeCredits payee rest with
      | .error e => .error e
      | .ok credits => .ok (credit :: credits)

/-! ## The bank -/

structure BlindBank (B : Type) where
  payee : Issuer
  bank : BlindBankContract B

namespace BlindBank

variable (bb : BlindBank B) (transferID account : Bytes)

/-- What `WithdrawBatch` does with the signatures of the bank. -/
def finalizeBatch (credits : Int) (state : List BlindSignState) (blindSignatures : List Bytes) :
    Except Err (List BlindedCredit) :=
  if blindSignatures.length ≠ state.length then
    .error (.new "bank returned an invalid amount of blind signatures, wanted %d, got %d"
      [.int credits, .int blindSignatures.length])
  else finalizeCredits bb.payee (state.zip blindSignatures)

/-- `draw i` is what the `i`-th credit draws. -/
def withdrawBatch (draw : Nat → Draw) (credits : Int) (amount : Value) (b : B) :
    Except Err (Int × List BlindedCredit) × B :=
  if credits ≤ 0 then (.error (.new "cant' withdraw < 1 credits" []), b)
  else
    match beginCredits bb.payee amount ((List.range credits.toNat).map draw) with
    | .error e => (.error e, b)
    | .ok state =>
      match bb.bank.withdrawBatch transferID account (state.map (·.request)) b with
      | (.error e, b) => (.error (.errorf "failed to withdraw batch: %w" [] e), b)
      | (.ok (newBalance, blindSignatures), b) =>
        match bb.finalizeBatch credits state blindSignatures with
        | .error e => (.error e, b)
        | .ok withdrawnCredits => (.ok (newBalance, withdrawnCredits), b)

/-- The loop of `Deposit`: the balance after the last credit. -/
def depositLoop (lastBalance : Int) : List BlindedCredit → B → Except Err Int × B
  | [], b => (.ok lastBalance, b)
  | cred :: credits, b =>
    match bb.bank.deposit transferID account cred b with
    | (.error e, b) => (.error e, b)
    | (.ok lastBalance, b) => depositLoop lastBalance credits b

def deposit (credits : List BlindedCredit) (b : B) : Except Err Int × B :=
  if credits.length = 0 then (.error (.new "can't deposit 0 credits" []), b)
  else bb.depositLoop transferID account 0 credits b

def exchange (d : Draw) (credit : AnyCredit) (b : B) : Except Err BlindedCredit × B :=
  match beginBlindedCredit bb.payee d credit.value with
  | .error e => (.error (.errorf "failed to prepare new credit: %w" [] e), b)
  | .ok s =>
    match bb.bank.exchange transferID credit s.request b with
    | (.error e, b) => (.error (.errorf "failed to exchange credit: %w" [] e), b)
    | (.ok blindSignature, b) =>
      match s.finalize bb.payee blindSignature with
      | .error e => (.error (.errorf "failed to finalize credit: %w" [] e), b)
      | .ok exchangedCredit => (.ok exchangedCredit, b)

/-! ### Calls that fail half way -/

/-- The amount of several credits. -/
def totalAmount (credits : List BlindedCredit) : Int := (credits.map (·.value.amountOrZero)).sum

/-- The bank debits the account, and the credits cannot be finalized with its signatures. -/
def Unfinalized (draw : Nat → Draw) (credits : Int) (amount : Value) (b : B) : Prop :=
  0 < credits ∧ ∃ state newBalance blindSignatures b' e,
    beginCredits bb.payee amount ((List.range credits.toNat).map draw) = .ok state ∧
      bb.bank.withdrawBatch transferID account (state.map (·.request)) b =
        (.ok (newBalance, blindSignatures), b') ∧
      bb.finalizeBatch credits state blindSignatures = .error e

/-- The credits that the bank accepts, up to the first one that it rejects. -/
def accepted : List BlindedCredit → B → List BlindedCredit
  | [], _ => []
  | cred :: credits, b =>
    match bb.bank.deposit transferID account cred b with
    | (.error _, _) => []
    | (.ok _, b) => cred :: accepted credits b

/-- The bank rejects a credit after it has accepted others that are worth something. -/
def Rejects (credits : List BlindedCredit) (b : B) : Prop :=
  bb.accepted transferID account credits b ≠ credits ∧
    int64 (totalAmount (bb.accepted transferID account credits b)) ≠ 0

end BlindBank

/-! ## Accounts -/

structure Account where
  token : Bytes
  balance : Int
  deriving DecidableEq

/-- `EmptyBankAccount`, with the token that was generated. -/
def emptyBankAccount (token : Bytes) : Account := ⟨token, 0⟩

/-- What a withdrawal reads from outside: the draws and, for a full withdrawal, the error of the
delay before the exchange. -/
structure WithdrawEnv where
  draw : Nat → Draw
  delay : Option Err := none

namespace Account

variable (bb : BlindBank B) (a : Account) (transferID : Bytes)

/-- The second part of a full withdrawal, after the bank has handed out the credit. -/
def exchangeUnblinded (env : WithdrawEnv) (credit : UnblindedCredit) (b : B) :
    Except Err BlindedCredit × B :=
  match env.delay with
  | some e => (.error (.errorf "failed to delay exchange operation: %w" [] e), b)
  | none =>
    match bb.exchange [] (env.draw 0) (.unblinded credit) b with
    | (.error e, b) => (.error (.errorf "failed to exchange unblinded withdrawal: %w" [] e), b)
    | (.ok credit, b) => (.ok credit, b)

/-- The credits and the rounding gain, or an error, with the account and the bank after it. -/
def withdraw (env : WithdrawEnv) (w : Withdrawal) (b : B) :
    Except WithdrawErr (List BlindedCredit × Int) × Account × B :=
  if w = fullWithdrawal then
    match bb.bank.withdrawFullUnblinded transferID a.token b with
    | (.error e, b) => (.error (.other (.errorf "failed to withdraw full account: %w" [] e)), a, b)
    | (.ok unblindedCredit, b) =>
      match exchangeUnblinded bb env unblindedCredit b with
      | (.error e, b) => (.error (.other e), a, b)
      | (.ok credit, b) =>
        let roundingGain := int64 (credit.value.amountOrZero - a.balance)
        (.ok ([credit], roundingGain), { a with balance := 0 }, b)
  else
    let expectNewBalance := int64 (a.balance - int64 (w.credits * w.amount.amountOrZero))
    if expectNewBalance < 0 then (.error (.insufficientBalance w a.balance), a, b)
    else
      match bb.withdrawBatch transferID a.token env.draw w.credits w.amount b with
      | (.error e, b) => (.error (.other e), a, b)
      | (.ok (newBalance, credits), b) => (.ok (credits, 0), { a with balance := newBalance }, b)

def deposit (credits : List BlindedCredit) (b : B) : Option Err × Account × B :=
  match bb.deposit transferID a.token credits b with
  | (.error e, b) => (some e, a, b)
  | (.ok newBalance, b) => (none, { a with balance := newBalance }, b)

/-- The bank hands out the balance of the account, and the credit cannot be exchanged. -/
def Unexchanged (env : WithdrawEnv) (b : B) : Prop :=
  ∃ credit b' e b'', bb.bank.withdrawFullUnblinded transferID a.token b = (.ok credit, b') ∧
    exchangeUnblinded bb env credit b' = (.error e, b'')

end Account

/-! ## Calls of the owner -/

inductive AccountCall where
  | deposit (transferID : Bytes) (credits : List BlindedCredit)
  | withdraw (transferID : Bytes) (env : WithdrawEnv) (w : Withdrawal)

/-- An account and the bank it is at. -/
structure Owned (B : Type) where
  account : Account
  bank : B

namespace Owned

variable (bb : BlindBank B) (balanceOf : B → Bytes → Int) (s : Owned B)

/-- Whether the call returns an error, and what it leaves. -/
def exec : AccountCall → Bool × Owned B
  | .deposit transferID credits =>
    let (err, account, bank) := s.account.deposit bb transferID credits s.bank
    (err.isSome, ⟨account, bank⟩)
  | .withdraw transferID env w =>
    let (r, account, bank) := s.account.withdraw bb transferID env w s.bank
    (match r with
      | .error _ => true
      | .ok _ => false, ⟨account, bank⟩)

def next (call : AccountCall) : Owned B := (s.exec bb call).2

/-- `Account.Balance()` is the balance at the bank. -/
def Mirrors : Prop := s.account.balance = balanceOf s.bank s.account.token

/-- The account mirrors the bank after the call, and an error means that the balance at the bank did
not change. -/
def Faithful (call : AccountCall) : Prop :=
  (s.next bb call).Mirrors balanceOf ∧
    ((s.exec bb call).1 = true →
      balanceOf (s.next bb call).bank s.account.token = balanceOf s.bank s.account.token)

instance : Decidable (s.Mirrors balanceOf) := inferInstanceAs (Decidable (_ = _))

instance (call : AccountCall) : Decidable (s.Faithful bb balanceOf call) :=
  inferInstanceAs (Decidable (_ ∧ (_ → _)))

/-- The call fails half way, after the bank has changed the balance. -/
def Interrupted : AccountCall → Prop
  | .deposit transferID credits => bb.Rejects transferID s.account.token credits s.bank
  | .withdraw transferID env w =>
    if w = fullWithdrawal then s.account.Unexchanged bb transferID env s.bank
    else
      0 ≤ int64 (s.account.balance - int64 (w.credits * w.amount.amountOrZero)) ∧
        bb.Unfinalized transferID s.account.token env.draw w.credits w.amount s.bank ∧
        int64 (w.credits * w.amount.amountOrZero) ≠ 0

end Owned

end Wallet
