import Mathlib.Data.List.AList
import OpenPCC.Anonpay.Processor

/-!
# The in-memory bank (`anonpay/banking/inmem/bank.go`)

`Ledger` is what the bank stores under its mutex. The withdrawals are functions of it: all their
effects happen in one critical section. `Deposit` and `Exchange` are programs, since they call the
nonce locker outside the mutex.
-/

namespace Anonpay

open Go Prog

/-! ## Accounts -/

/-- `storedAccount`. -/
structure StoredAccount where
  balance : Int
  mutations : List Int
  deriving DecidableEq, Repr

/-- The account of a key that is not in the map. -/
def StoredAccount.zero : StoredAccount := ⟨0, []⟩

/-- The accounts and the rounding corrections of a `Bank`. -/
structure Ledger where
  accounts : AList fun _ : Bytes => StoredAccount
  roundingMutations : List Int

def Ledger.new : Ledger := ⟨∅, []⟩

/-- The SHA-512 digest of the empty input: `keyHash` never hashes anything. -/
def keyHashSum : Bytes :=
  [0xcf, 0x83, 0xe1, 0x35, 0x7e, 0xef, 0xb8, 0xbd, 0xf1, 0x54, 0x28, 0x50, 0xd6, 0x6d, 0x80, 0x07,
   0xd6, 0x20, 0xe4, 0x05, 0x0b, 0x57, 0x15, 0xdc, 0x83, 0xf4, 0xa9, 0x21, 0xd3, 0x6c, 0xe9, 0xce,
   0x47, 0xd0, 0xd1, 0x3c, 0x5d, 0x85, 0xf2, 0xb0, 0xff, 0x83, 0x18, 0xd2, 0x87, 0x7e, 0xec, 0x2f,
   0x63, 0xb9, 0x31, 0xbd, 0x47, 0x41, 0x7a, 0x81, 0xa5, 0x38, 0x32, 0x7a, 0xf9, 0x27, 0xda, 0x3e]

/-- `keyForAccount`: `Sum` appends the digest to the secret bytes of the account. -/
def keyForAccount (account : Bytes) : Bytes := Hex.encodeToString (account ++ keyHashSum)

/-- `b.accounts[keyForAccount(account)]`, with the zero value for a missing key. -/
def Ledger.stored (b : Ledger) (account : Bytes) : StoredAccount :=
  (b.accounts.lookup (keyForAccount account)).getD .zero

/-- `Bank.Balance`. -/
def Ledger.balance (b : Ledger) (account : Bytes) : Int := (b.stored account).balance

/-- `Bank.AccountHistory`. -/
def Ledger.accountHistory (b : Ledger) (account : Bytes) : List Int := (b.stored account).mutations

/-- `Bank.TotalBalance`. -/
def Ledger.totalBalance (b : Ledger) : Int :=
  b.accounts.entries.foldl (fun sum acc => int64 (sum + acc.2.balance)) 0

/-! ## Withdrawals -/

def maxReqs : Nat := 15

/-- The loop of `WithdrawBatch` that checks the requests and sums their amounts. -/
def sumRequests (seen : List Bytes) (sum : Int) : List BlindSignRequest → Except Err Int
  | [] => .ok sum
  | req :: reqs =>
    if req.blindedMessage ∈ seen then
      .error (.inputError (.new "duplicate blind sign request" []))
    else match req.value.amount with
    | .error e => .error (.inputError (.errorf "can't withdraw special credit: %w" [] e))
    | .ok amount =>
      if amount ≤ 0 then .error (.inputError (.new "can't withdraw zero amount" []))
      else sumRequests (req.blindedMessage :: seen) (int64 (sum + amount)) reqs

/-- The loop of `WithdrawBatch` that signs the requests; `i` is the index of the first one. -/
def blindSignRequests (issuer : Issuer) (i : Nat) : List BlindSignRequest → Except Err (List Bytes)
  | [] => .ok []
  | req :: reqs =>
    match issuer.blindSign req with
    | .error e => .error (.errorf "failed to blind sign request %d: %w" [.int i] e)
    | .ok sig =>
      match blindSignRequests issuer (i + 1) reqs with
      | .error e => .error e
      | .ok sigs => .ok (sig :: sigs)

/-- `Bank.WithdrawBatch`: the new balance and the blind signatures. -/
def Ledger.withdrawBatch (issuer : Issuer) (b : Ledger) (account : Bytes)
    (reqs : List BlindSignRequest) : Except Err (Int × List Bytes) × Ledger :=
  if reqs.length = 0 then (.error (.inputError (.new "can't withdraw zero credits" [])), b)
  else if reqs.length > maxReqs then
    (.error (.inputError (.new "can't withdraw more than %d credits, got %d requests"
      [.int maxReqs, .int reqs.length])), b)
  else match sumRequests [] 0 reqs with
  | .error e => (.error e, b)
  | .ok sum =>
    match blindSignRequests issuer 0 reqs with
    | .error e => (.error e, b)
    | .ok blindSignatures =>
      let key := keyForAccount account
      match b.accounts.lookup key with
      | none => (.error (.insufficientBalance 0), b)
      | some stored =>
        if stored.balance < sum then (.error (.insufficientBalance stored.balance), b)
        else
          let stored : StoredAccount :=
            ⟨int64 (stored.balance - sum), stored.mutations ++ [int64 (-1 * sum)]⟩
          (.ok (stored.balance, blindSignatures),
            { b with accounts := b.accounts.insert key stored })

/-- `Bank.WithdrawFullUnblinded`. `roundFunc` gets the balance, which is exact as a `float64`
because it is at most `maxAmount`. -/
def Ledger.withdrawFullUnblinded (issuer : Issuer) (roundFunc : Int → Except Err Value) (d : Draw)
    (b : Ledger) (account : Bytes) : Except Err UnblindedCredit × Ledger :=
  let key := keyForAccount account
  match b.accounts.lookup key with
  | none => (.error (.new "account does not exist" []), b)
  | some stored =>
    if stored.balance ≤ 0 then (.error (.new "account does not exist" []), b)
    else if stored.balance > maxAmount then
      (.error (.new "can't withdraw balance over max currency amount" []), b)
    else match roundFunc stored.balance with
    | .error e => (.error e, b)
    | .ok creditAmount =>
      match issuer.issueUnblindedCredit d creditAmount with
      | .error e => (.error (.errorf "could not create credit: %w" [] e), b)
      | .ok credit =>
        let roundingMutation := int64 (stored.balance - creditAmount.amountOrZero)
        let stored : StoredAccount :=
          ⟨0, stored.mutations ++ [int64 (-1 * creditAmount.amountOrZero)]⟩
        (.ok credit,
          ⟨b.accounts.insert key stored, b.roundingMutations ++ [roundingMutation]⟩)

/-! ## Deposits and exchanges -/

/-- The critical section of `Bank.Deposit`: the new balance. -/
def Ledger.updateBalance (b : Ledger) (account : Bytes) (amount : Int) (credit : BlindedCredit) :
    Int × Ledger :=
  let key := keyForAccount account
  let stored := b.stored account
  let stored : StoredAccount :=
    ⟨int64 (stored.balance + amount), stored.mutations ++ [credit.value.amountOrZero]⟩
  (stored.balance, { b with accounts := b.accounts.insert key stored })

theorem Ledger.accountHistory_updateBalance (b : Ledger) (account : Bytes) (amount : Int)
    (credit : BlindedCredit) :
    (b.updateBalance account amount credit).2.accountHistory account =
      b.accountHistory account ++ [credit.value.amountOrZero] := by
  simp [Ledger.updateBalance, Ledger.accountHistory, Ledger.stored]

/-- `Bank.Deposit` once its transaction has begun. The deferred `Rollback` runs after the mutex is
unlocked, and its error is joined to the result. -/
def depositTx (account : Bytes) (amount : Int) (credit : BlindedCredit) (tx : Transaction) :
    Op (Int × Option Err) := do
  let (err, tx) ← tx.commit
  match err with
  | some e => return (0, join (some e) (← tx.rollback))
  | none =>
    let balance : Int ← perform (Call.updateBalance account amount credit)
    return (balance, join none (← tx.rollback))

/-- `Bank.Deposit`: the balance and the error. -/
def deposit (issuer : Issuer) (account : Bytes) (credit : BlindedCredit) :
    Op (Int × Option Err) := do
  match credit.value.amount with
  | .error e => return (0, some (.inputError (.errorf "can't deposit special credit: %w" [] e)))
  | .ok amount =>
    if amount ≤ 0 then return (0, some (.inputError (.new "can't deposit zero amount" [])))
    else match ← beginTransaction issuer credit with
    | .error e => return (0, some (.errorf "failed to begin transaction: %w" [] e))
    | .ok tx => depositTx account amount credit tx

/-- `Bank.Exchange`. -/
def exchange (issuer : Issuer) (credit : AnyCredit) (request : BlindSignRequest) :
    Op (Except Err Bytes) :=
  match request.value.amount with
  | .error e => return .error (.inputError (.errorf "can't exchange special credit: %w" [] e))
  | .ok amount =>
    if amount ≤ 0 then
      return .error (.inputError (.new "can't exchange credit with zero amount" []))
    else exchangerExchange issuer credit request

end Anonpay
