import OpenPCC.Anonpay.Proof.Deposit
import OpenPCC.Anonpay.Redeem

/-!
# The in-memory bank takes credits

With the in-memory locker and a sound scheme, the in-memory bank redeems every credit whose nonce is
free and not expired (`InMem.redeems`): such a nonce can be locked, and what is locked can be
consumed.
-/

namespace Anonpay

open Go World

theorem Issuer.newUnsignedCredit_sound {issuer : Issuer} (hsound : issuer.scheme.Sound) {d : Draw}
    {value : Value} {blindedMessage state : Bytes} {nonce : Nonce}
    (h : issuer.newUnsignedCredit d value = .ok (blindedMessage, nonce, state)) :
    ∃ blindSignature signature,
      issuer.blindSign ⟨value, blindedMessage⟩ = .ok blindSignature ∧
      issuer.scheme.finalize state blindSignature = .ok signature ∧
      issuer.verifyCredit (.blinded ⟨value, nonce, signature⟩) = none := by
  unfold Issuer.newUnsignedCredit at h
  split at h
  · cases h
  · split at h
    · cases h
    · split at h
      · cases h
      · next blindedMessage' state' hblind =>
        cases h
        obtain ⟨blindSignature, signature, hsign, hfinalize, hverify⟩ := hsound hblind
        refine ⟨blindSignature, signature, ?_, hfinalize, ?_⟩
        · rw [Issuer.blindSign, hsign]
        · simp only [Issuer.verifyCredit, AnyCredit.nonce, AnyCredit.value, AnyCredit.signature,
            hverify, Option.map_none]

namespace InMem

variable {now : Int} (ticket : Vector UInt8 8) {b : Bank NonceLocker} {n : Nonce}

theorem spend_of_usable (h : Usable now b n) :
    ∃ t l l', b.locker.lockNonce now (.ok ticket) n = (.ok t, l) ∧
      l.consumeNonce n t = (none, l') ∧ ∀ x, x ≠ n.nonce → l'.status x = b.locker.status x := by
  obtain ⟨t, l, hlock, hlocked⟩ := lockNonce_of_free ticket h.length h.valid h.free
  have hstatus : l.status n.nonce = .locked t := (hlocked n.nonce).trans (if_pos rfl)
  obtain ⟨l', hconsume, hconsumed⟩ := consumeNonce_of_locked t hstatus
  refine ⟨t, l, l', hlock, hconsume, fun x hx => ?_⟩
  rw [hconsumed, if_neg hx, hlocked, if_neg hx]

variable {issuer : Issuer} (roundFunc : Int → Except Err Value) (d : Draw)

theorem redeems (hsound : issuer.scheme.Sound) :
    (bank issuer (nonceLocker now (.ok ticket)) roundFunc d).Redeems issuer (Usable now) where
  exchange_ok transferID credit amount d' blindedMessage state nonce b hverify husable hamount
      hpos hnew := by
    obtain ⟨blindSignature, signature, hsign, hfinalize, hverify'⟩ :=
      Issuer.newUnsignedCredit_sound hsound hnew
    obtain ⟨t, l, l', hlock, hconsume, hother⟩ := spend_of_usable ticket husable
    refine ⟨blindSignature, signature, ⟨l', b.ledger⟩, ?_, hfinalize, hverify', ?_⟩
    · simp only [bank, Anonpay.exchange, hamount, if_neg (not_le.2 hpos), exec_exchangerExchange,
        hverify, hsign, nonceLocker, hlock, hconsume, ne_eq, not_true_eq_false, if_false]
      rfl
    · intro n hn h
      exact ⟨h.length, h.valid, (hother _ hn).trans h.free⟩
  exchange_zero transferID credit request b hzero := by
    simp only [bank, Anonpay.exchange]
    cases hrequest : request.value.amount with
    | error e => exact ⟨_, _, rfl⟩
    | ok amount =>
      by_cases hpos : amount ≤ 0
      · simp only [if_pos hpos]
        exact ⟨_, _, rfl⟩
      · have hne : credit.value ≠ request.value := by
          intro heq
          rw [heq, hrequest, Except.ok.injEq] at hzero
          omega
        simp only [if_neg hpos, exec_exchangerExchange, if_pos hne]
        exact ⟨_, _, rfl⟩
  deposit_ok transferID account credit amount b hverify husable hamount hpos := by
    obtain ⟨t, l, l', hlock, hconsume, -⟩ := spend_of_usable ticket husable
    have hspends : Spends (nonceLocker now (.ok ticket)) issuer credit
        ⟨b.locker, b.ledger, [], none⟩ amount :=
      ⟨hamount, hpos, hverify, t, l, hlock, rfl, congrArg Prod.fst hconsume⟩
    obtain ⟨-, -, hno⟩ | ⟨-, -, -, -, herr⟩ :=
      deposit_cases (nonceLocker now (.ok ticket)) issuer account credit
        ⟨b.locker, b.ledger, [], none⟩
    · exact absurd hspends (hno amount)
    · simp only [bank, herr]
      exact ⟨_, _, rfl⟩

end InMem

end Anonpay
