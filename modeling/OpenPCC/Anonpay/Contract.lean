import OpenPCC.Anonpay.World

/-!
# The contract of a nonce locker (`anonpay/anonpay.go`)

`Contract` is what the comments of `NonceLocker` and `LockedNonce` promise about one nonce, in
terms of an abstract status: a lock is granted on a free nonce only, a consumed nonce stays out of
reach, a released lock frees its nonce. A `Consume` may fail; it then changes nothing.

The in-memory locker meets it (`InMem.contract`), and so does a locker over it whose `Consume`
refuses a context that is done (`Contract.strict`).
-/

namespace Anonpay

open Go

variable {L : Type}

/-- `nl` honours its documentation, with `status` telling how a nonce stands. -/
structure Contract (nl : NonceLocker L) where
  status : L → Bytes → Status
  lock_ok : ∀ {c n l t l'}, nl.checkAndLockNonce c n l = (.ok t, l') →
    status l n.nonce = .free ∧ status l' n.nonce = .locked t
  consume_ok : ∀ {c n t l l'}, nl.consume c n t l = (none, l') → status l' n.nonce = .consumed
  consume_error : ∀ {c n t l e l'}, nl.consume c n t l = (some e, l') → l' = l
  release_locked : ∀ {c n t l}, status l n.nonce = .locked t →
    status (nl.release c n t l).2 n.nonce = .free
  release_other : ∀ {c n t l}, status l n.nonce ≠ .locked t →
    status (nl.release c n t l).2 n.nonce ≠ .locked t

/-- The in-memory locker honours the contract. -/
def InMem.contract (now : Int) (rand : Except Err (Vector UInt8 8)) :
    Contract (InMem.nonceLocker now rand) where
  status := InMem.NonceLocker.status
  lock_ok {_ n l t l'} h := by
    change l.lockNonce now rand n = (.ok t, l') at h
    rcases InMem.lockNonce_cases now rand l n with ⟨e, he⟩ | ⟨t₀, l₀, he, hfree, hst⟩
    · rw [he] at h
      cases h
    · rw [he] at h
      cases h
      exact ⟨hfree, by simp [hst]⟩
  consume_ok {_ n t l l'} h := by
    change l.consumeNonce n t = (none, l') at h
    rcases InMem.consumeNonce_cases l n t with ⟨e, he⟩ | ⟨t', l₀, he, -, hst⟩
    · rw [he] at h
      cases h
    · rw [he] at h
      cases h
      simp [hst]
  consume_error {_ n t l e l'} h := by
    change l.consumeNonce n t = (some e, l') at h
    rcases InMem.consumeNonce_cases l n t with ⟨e, he⟩ | ⟨t', l₀, he, -, hst⟩
    · rw [he] at h
      cases h
      rfl
    · rw [he] at h
      cases h
  release_locked {_ n t l} h := by
    change (l.releaseNonce n t).2.status n.nonce = .free
    obtain ⟨l', hok, hst⟩ := InMem.releaseNonce_of_locked t h
    simp [hok, hst]
  release_other {_ n t l} h := by
    change (l.releaseNonce n t).2.status n.nonce ≠ .locked t
    rcases InMem.releaseNonce_cases l n t with ⟨e, he⟩ | ⟨t', l₀, he, -, hst⟩
    · simpa [he] using h
    · simp [he, hst]

/-- `nl` with a `Consume` that refuses a context that is done. -/
def NonceLocker.strict (nl : NonceLocker L) : NonceLocker L where
  checkAndLockNonce := nl.checkAndLockNonce
  consume
    | some d, _, _, l => (some d.err, l)
    | none, n, t, l => nl.consume none n t l
  release := nl.release

def Contract.strict {nl : NonceLocker L} (C : Contract nl) : Contract nl.strict where
  status := C.status
  lock_ok h := C.lock_ok h
  consume_ok {c n t l l'} h := by
    cases c with
    | some d => cases h
    | none => exact C.consume_ok h
  consume_error {c n t l e l'} h := by
    cases c with
    | some d =>
      cases h
      rfl
    | none => exact C.consume_error h
  release_locked h := C.release_locked h
  release_other h := C.release_other h

end Anonpay
