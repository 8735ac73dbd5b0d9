import OpenPCC.Anonpay.BlindBank

/-!
# Credits that a bank takes (`anonpay/banking/blind_bank_contract.go`)

`Redeems` is what the comments of the interface promise about a credit that verifies and whose nonce
can be used: the bank exchanges it and takes it as a deposit, unless it is a credit of zero. The
signature of an exchange finishes the credit that was prepared for it.

A blind signature scheme is `Sound` if what is signed can be finalized and verified.
-/

namespace Anonpay

open Go

variable {B : Type}

/-- A message that was blinded is signed, and the signature can be finalized and verifies. -/
def Scheme.Sound (scheme : Scheme) : Prop :=
  ∀ {msg metadata r rInv blindedMessage state : Bytes},
    scheme.fixedBlind msg metadata r rInv = .ok (blindedMessage, state) →
      ∃ blindSignature signature, scheme.blindSign blindedMessage metadata = .ok blindSignature ∧
        scheme.finalize state blindSignature = .ok signature ∧
        scheme.verify msg metadata signature = none

/-- The bank honours the comments on `Exchange` and `Deposit` for credits that the payee verifies;
`Usable` are the nonces that are not expired, not spent and not locked. -/
structure BlindBankContract.Redeems (bank : BlindBankContract B) (payee : Issuer)
    (Usable : B → Nonce → Prop) : Prop where
  exchange_ok (transferID : Bytes) {credit : AnyCredit} {amount : Int} {d : Draw}
    {blindedMessage state : Bytes} {nonce : Nonce} {b : B} :
    payee.verifyCredit credit = none → Usable b credit.nonce →
      credit.value.amount = .ok amount → 0 < amount →
      payee.newUnsignedCredit d credit.value = .ok (blindedMessage, nonce, state) →
      ∃ blindSignature signature b',
        bank.exchange transferID credit ⟨credit.value, blindedMessage⟩ b =
          (.ok blindSignature, b') ∧
        payee.scheme.finalize state blindSignature = .ok signature ∧
        payee.verifyCredit (.blinded ⟨credit.value, nonce, signature⟩) = none ∧
        ∀ n, n.nonce ≠ credit.nonce.nonce → Usable b n → Usable b' n
  exchange_zero (transferID : Bytes) {credit : AnyCredit} (request : BlindSignRequest) (b : B) :
    credit.value.amount = .ok 0 → ∃ e b', bank.exchange transferID credit request b = (.error e, b')
  deposit_ok (transferID account : Bytes) {credit : BlindedCredit} {amount : Int} {b : B} :
    payee.verifyCredit (.blinded credit) = none → Usable b credit.nonce →
      credit.value.amount = .ok amount → 0 < amount →
      ∃ balance b', bank.deposit transferID account credit b = (.ok balance, b')

/-- The nonces that the in-memory bank takes at the time `now`. -/
structure InMem.Usable (now : Int) (b : Bank InMem.NonceLocker) (n : Nonce) : Prop where
  length : n.nonce.length = nonceLen
  valid : n.isExpiredAt now = false
  free : b.locker.status n.nonce = .free

end Anonpay
