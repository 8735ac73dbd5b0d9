import OpenPCC.Anonpay.HttpBank
import OpenPCC.Httpretry.DoWith

/-!
# One withdrawal over HTTP (`anonpay/banking/httpapi/client.go`, `Client.WithdrawBatch`)

A call of `Client.WithdrawBatch` is a call of `DoWith` against a server of the in-memory bank. The
network may lose a request or a response, and an attempt may fail before or after the server has
processed its request. The server keeps nothing of a request but what the bank stores. Other clients
may use other accounts in between.
-/

namespace Anonpay

open Go Httpretry

variable {L : Type}

namespace HttpApi

abbrev WithdrawReply := Reply Pb.BatchWithdrawResponse

/-- What `WithdrawBatch` returns at the end of `DoWith`. -/
def withdrawReturn (reqs : List BlindSignRequest) :
    Except Failure WithdrawReply → Except Err (Int × List Bytes)
  | .error f => .error (.errorf "failed to withdraw batch: %w" [] f.err)
  | .ok reply => withdrawResult reqs reply

end HttpApi

/-- A state of a call of `WithdrawBatch` and of the bank. -/
abbrev WithdrawCall (L : Type) := Rpc.Call (Bank L) HttpApi.WithdrawReply Failure

/-- The step of the server reads nothing but the request. -/
abbrev WithdrawAct (L : Type) := Rpc.Act (Bank L) Unit Failure

namespace WithdrawCall

/-- The bank and the request of a call. -/
structure Config (L : Type) where
  issuer : Issuer
  nonceLocker : NonceLocker L
  roundFunc : Int → Except Err Value
  draw : Draw
  account : Bytes
  reqs : List BlindSignRequest

variable (cfg : Config L)

def Config.protocol : Rpc.Protocol (Bank L) Unit HttpApi.WithdrawReply Failure :=
  doWith HttpApi.Reply.statusCode fun _ b =>
    HttpApi.withdrawBatchHandler
      (InMem.bank cfg.issuer cfg.nonceLocker cfg.roundFunc cfg.draw)
      (HttpApi.withdrawRequest cfg.account cfg.reqs) b

/-- The sum of the batch that the server decodes. -/
def Config.sum : Int := batchAmount (cfg.reqs.map (·.received))

/-- The call that starts in `b` has debited the account `k` times by the sum of the batch. -/
def Debited (b : Bank L) (k : Nat) (c : WithdrawCall L) : Prop :=
  c.server.ledger.accountHistory cfg.account =
      b.ledger.accountHistory cfg.account ++ List.replicate k (int64 (-1 * cfg.sum)) ∧
    InMem.balanceOf c.server cfg.account =
      int64 (InMem.balanceOf b cfg.account - k * cfg.sum)

/-- The account is debited at most once, and exactly once if the call returns signatures. -/
def DebitsOnce (b : Bank L) (c : WithdrawCall L) : Prop :=
  ∃ k, Debited cfg b k c ∧ k ≤ 1 ∧
    ∀ result balance signatures, c.caller = .returned result →
      HttpApi.withdrawReturn cfg.reqs result = .ok (balance, signatures) → k = 1

/-- The server gets a request of a call that has debited the account, and the balance covers the
batch once more. -/
def Redebits (b : Bank L) (c : WithdrawCall L) : WithdrawAct L → Prop
  | .serve _ _ =>
    c.server.ledger.accountHistory cfg.account ≠ b.ledger.accountHistory cfg.account ∧
      cfg.sum ≤ c.server.ledger.balance cfg.account
  | _ => False

instance (b : Bank L) (c : WithdrawCall L) : ∀ a, Decidable (Redebits cfg b c a)
  | .serve _ _ => inferInstanceAs (Decidable (_ ∧ _))
  | .lose _ | .deliver | .fail _ | .retry | .stop _ | .other _ => inferInstanceAs (Decidable False)

/-- The other clients do not use the account during the call. -/
def Undisturbed : WithdrawAct L → Prop
  | .other f => ∀ b, (f b).ledger.stored cfg.account = b.ledger.stored cfg.account
  | _ => True

end WithdrawCall

end Anonpay
