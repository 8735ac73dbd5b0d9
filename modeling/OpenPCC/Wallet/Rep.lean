import Mathlib.Data.Finset.Card
import Mathlib.Data.List.AList
import Mathlib.Algebra.Order.Ring.Int

/-!
# Repeated transfers

A withdrawable or a depositable that takes part in several transfers is repeated: each repetition
has an index, and one of them is marked as the last (`Rep`). When the transfers are done, a step of
the pipeline collects the repetitions for each of them (`collect`) and knows from the indices when a
group is complete (`RepResults`).
-/

namespace Wallet

/-- `RepWithdrawable` and `RepDepositable`: a repetition of `key`. -/
structure Rep (κ : Type) where
  key : κ
  index : Int
  last : Bool
  deriving DecidableEq

structure RepResults where
  seen : Finset Int := ∅
  groupLen : Option Int := none
  deriving DecidableEq

namespace RepResults

variable (g : RepResults)

def add {κ : Type} (rep : Rep κ) : RepResults where
  seen := insert rep.index g.seen
  groupLen := if rep.last then some (rep.index + 1) else g.groupLen

def complete : Bool :=
  match g.groupLen with
  | none => false
  | some groupLen => g.seen.card = groupLen

end RepResults

/-- What `DedupeAccounts` and `DedupeBatches` do with a repetition: the results of a group that is
complete are deleted. -/
def collect {κ : Type} [DecidableEq κ] (results : AList fun _ : κ => RepResults) (rep : Rep κ) :
    (AList fun _ : κ => RepResults) × Bool :=
  let group := ((results.lookup rep.key).getD {}).add rep
  if group.complete then (results.erase rep.key, true) else (results.insert rep.key group, false)

end Wallet
