import Mathlib.Data.List.AList
import OpenPCC.Anonpay.Credit

/-!
# The in-memory nonce locker (`anonpay/noncelocking/inmem/nonce_locker.go`)

The locker is a table from the hexadecimal text of a nonce to its status and the ticket stored
with it. Every method runs under the locker's mutex, so it is a function of the table. What
`LockNonce` reads from outside, the clock and the 8 random bytes of a ticket, is an argument.

`NonceLocker.status` is the table read by nonce bytes; `lockNonce_cases`, `consumeNonce_cases`
and `releaseNonce_cases` say everything a call can do to it, `lockNonce_of_free` and the lemmas
after it when a call succeeds.
-/

namespace Anonpay

open Go

/-- What a ticket locker knows about a nonce. -/
inductive Status where
  | free
  | locked (ticket : Bytes)
  | consumed
  deriving DecidableEq, Repr

/-- The ticket of a lock. -/
def Status.ticket : Status → Option Bytes
  | .locked t => some t
  | _ => none

theorem Status.eq_locked {s : Status} {t : Bytes} (h : s.ticket = some t) : s = .locked t := by
  cases s <;> simp_all [Status.ticket]

namespace InMem

inductive NonceStatus where
  | locked | consumed
  deriving DecidableEq, Repr

structure StoredNonce where
  status : NonceStatus
  ticket : Bytes
  deriving DecidableEq, Repr

/-- `inmem.NonceLocker`. -/
structure NonceLocker where
  nonces : AList fun _ : Bytes => StoredNonce
  /-- Only nonces of the right length are stored. -/
  keys : ∀ key ∈ nonces, ∃ b : Bytes, b.length = nonceLen ∧ key = Hex.encodeToString b

/-- `NewNonceLocker`. -/
def NonceLocker.new : NonceLocker := ⟨∅, nofun⟩

/-- `l.nonces[hex.EncodeToString(b)] = sn`. -/
def NonceLocker.insert (l : NonceLocker) (b : Bytes) (hb : b.length = nonceLen) (sn : StoredNonce) :
    NonceLocker where
  nonces := l.nonces.insert (Hex.encodeToString b) sn
  keys key hk := (AList.mem_insert _).1 hk |>.elim (fun h => ⟨b, hb, h⟩) (l.keys key)

/-- `delete(l.nonces, hex.EncodeToString(b))`. -/
def NonceLocker.erase (l : NonceLocker) (b : Bytes) : NonceLocker where
  nonces := l.nonces.erase (Hex.encodeToString b)
  keys key hk := l.keys key (AList.mem_erase.1 hk).2

def invalidNonceLength : Err := .inputError (.new "invalid nonce length" [])

/-- `NonceLocker.LockNonce` at the Unix time `now`; `rand` is the read of the ticket's bytes. -/
def NonceLocker.lockNonce (now : Int) (rand : Except Err (Vector UInt8 8)) (l : NonceLocker)
    (nonce : Nonce) : Except Err Bytes × NonceLocker :=
  if hlen : nonce.nonce.length ≠ nonceLen then (.error invalidNonceLength, l)
  else if nonce.isExpiredAt now then (.error (.inputError (.new "expired nonce" [])), l)
  else
    match l.nonces.lookup (Hex.encodeToString nonce.nonce) with
    | some sn =>
      if sn.status = .locked then (.error (.var .nonceLocked), l)
      else (.error (.var .nonceConsumed), l)
    | none =>
      match rand with
      | .error e => (.error (.errorf "failed to read ticket: %w" [] e), l)
      | .ok ticketB =>
        let ticket := Hex.encodeToString ticketB.toList
        (.ok ticket, l.insert nonce.nonce (not_not.1 hlen) ⟨.locked, ticket⟩)

/-- The part `ConsumeNonce` and `ReleaseNonce` share: a locked nonce is updated. The ticket is only
shown in the error; it is not compared with the stored one. -/
def NonceLocker.onLocked (l : NonceLocker) (nonce : Nonce) (ticket : Bytes)
    (update : nonce.nonce.length = nonceLen → NonceLocker) : Option Err × NonceLocker :=
  if hlen : nonce.nonce.length ≠ nonceLen then (some invalidNonceLength, l)
  else
    match l.nonces.lookup (Hex.encodeToString nonce.nonce) with
    | none => (some (.new "no lock found for ticket: %s" [.str ticket]), l)
    | some sn =>
      if sn.status = .consumed then (some (.var .nonceConsumed), l)
      else (none, update (not_not.1 hlen))

/-- `NonceLocker.ConsumeNonce`. -/
def NonceLocker.consumeNonce (l : NonceLocker) (nonce : Nonce) (ticket : Bytes) :
    Option Err × NonceLocker :=
  l.onLocked nonce ticket fun hlen => l.insert nonce.nonce hlen ⟨.consumed, ticket⟩

/-- `NonceLocker.ReleaseNonce`. -/
def NonceLocker.releaseNonce (l : NonceLocker) (nonce : Nonce) (ticket : Bytes) :
    Option Err × NonceLocker :=
  l.onLocked nonce ticket fun _ => l.erase nonce.nonce

/-! ## The table by nonce bytes -/

/-- What the table says about the nonce bytes `b`. -/
def NonceLocker.status (l : NonceLocker) (b : Bytes) : Status :=
  match l.nonces.lookup (Hex.encodeToString b) with
  | none => .free
  | some ⟨.locked, t⟩ => .locked t
  | some ⟨.consumed, _⟩ => .consumed

@[simp] theorem NonceLocker.status_new (b : Bytes) : NonceLocker.new.status b = .free := by
  simp [NonceLocker.status, NonceLocker.new]

theorem NonceLocker.length_of_locked {l : NonceLocker} {b t : Bytes} (h : l.status b = .locked t) :
    b.length = nonceLen := by
  have hmem : Hex.encodeToString b ∈ l.nonces := by
    rw [← AList.lookup_isSome]
    unfold NonceLocker.status at h
    split at h <;> simp_all
  obtain ⟨b', hb', heq⟩ := l.keys _ hmem
  exact Hex.encodeToString_inj heq ▸ hb'

section
variable (l : NonceLocker) (b b' : Bytes)

theorem NonceLocker.status_insert (hb : b.length = nonceLen) (sn : StoredNonce) :
    (l.insert b hb sn).status b' =
      if b' = b then
        match sn with
        | ⟨.locked, t⟩ => .locked t
        | ⟨.consumed, _⟩ => .consumed
      else l.status b' := by
  unfold NonceLocker.status NonceLocker.insert
  by_cases h : b' = b
  · subst h
    simp only [AList.lookup_insert, ↓reduceIte]
    obtain ⟨s, t⟩ := sn
    cases s <;> rfl
  · have hk : Hex.encodeToString b' ≠ Hex.encodeToString b := by
      intro he
      exact h (Hex.encodeToString_inj he)
    simp only [AList.lookup_insert_ne hk, h, ↓reduceIte]

theorem NonceLocker.status_erase :
    (l.erase b).status b' = if b' = b then .free else l.status b' := by
  unfold NonceLocker.status NonceLocker.erase
  by_cases h : b' = b
  · subst h
    simp only [AList.lookup_erase, ↓reduceIte]
  · have hk : Hex.encodeToString b' ≠ Hex.encodeToString b := by
      intro he
      exact h (Hex.encodeToString_inj he)
    simp only [AList.lookup_erase_ne hk, h, ↓reduceIte]

end

/-! ## What a call can do -/

theorem lockNonce_cases (now : Int) (rand : Except Err (Vector UInt8 8)) (l : NonceLocker)
    (n : Nonce) :
    (∃ e, l.lockNonce now rand n = (.error e, l)) ∨
      ∃ t l', l.lockNonce now rand n = (.ok t, l') ∧ l.status n.nonce = .free ∧
        ∀ b, l'.status b = if b = n.nonce then .locked t else l.status b := by
  unfold NonceLocker.lockNonce
  by_cases hlen : n.nonce.length ≠ nonceLen
  · exact .inl ⟨_, dif_pos hlen⟩
  · rw [dif_neg hlen]
    by_cases hexp : n.isExpiredAt now = true
    · exact .inl ⟨_, if_pos hexp⟩
    · rw [if_neg hexp]
      cases hl : l.nonces.lookup (Hex.encodeToString n.nonce) with
      | some sn =>
        by_cases hs : sn.status = .locked
        · exact .inl ⟨_, if_pos hs⟩
        · exact .inl ⟨_, if_neg hs⟩
      | none =>
        cases rand with
        | error e => exact .inl ⟨_, rfl⟩
        | ok ticketB =>
          refine .inr ⟨_, _, rfl, by simp [NonceLocker.status, hl], fun b => ?_⟩
          exact l.status_insert n.nonce b _ _

section
variable (l : NonceLocker) (n : Nonce) (t : Bytes)

theorem onLocked_cases (update : n.nonce.length = nonceLen → NonceLocker) :
    (∃ e, l.onLocked n t update = (some e, l)) ∨
      ∃ t' hlen, l.status n.nonce = .locked t' ∧ l.onLocked n t update = (none, update hlen) := by
  unfold NonceLocker.onLocked
  by_cases hlen : n.nonce.length ≠ nonceLen
  · exact .inl ⟨_, dif_pos hlen⟩
  · rw [dif_neg hlen]
    cases hl : l.nonces.lookup (Hex.encodeToString n.nonce) with
    | none => exact .inl ⟨_, rfl⟩
    | some sn =>
      obtain ⟨s, t'⟩ := sn
      cases s with
      | consumed => exact .inl ⟨_, if_pos rfl⟩
      | locked =>
        exact .inr ⟨t', not_not.1 hlen, by simp [NonceLocker.status, hl], if_neg (by simp)⟩

theorem consumeNonce_cases :
    (∃ e, l.consumeNonce n t = (some e, l)) ∨
      ∃ t' l', l.consumeNonce n t = (none, l') ∧ l.status n.nonce = .locked t' ∧
        ∀ b, l'.status b = if b = n.nonce then .consumed else l.status b := by
  rcases onLocked_cases l n t _ with h | ⟨t', hlen, hs, h⟩
  · exact .inl h
  · exact .inr ⟨t', _, h, hs, fun b => l.status_insert n.nonce b hlen _⟩

theorem releaseNonce_cases :
    (∃ e, l.releaseNonce n t = (some e, l)) ∨
      ∃ t' l', l.releaseNonce n t = (none, l') ∧ l.status n.nonce = .locked t' ∧
        ∀ b, l'.status b = if b = n.nonce then .free else l.status b := by
  rcases onLocked_cases l n t _ with h | ⟨t', hlen, hs, h⟩
  · exact .inl h
  · exact .inr ⟨t', _, h, hs, fun b => l.status_erase n.nonce b⟩

/-- The stored ticket plays no part: a locked nonce is updated whatever ticket is shown. -/
theorem onLocked_of_locked {l : NonceLocker} {n : Nonce} {t' : Bytes}
    (h : l.status n.nonce = .locked t') (update : n.nonce.length = nonceLen → NonceLocker) :
    ∃ hlen, l.onLocked n t update = (none, update hlen) := by
  have hlen := NonceLocker.length_of_locked h
  refine ⟨hlen, ?_⟩
  unfold NonceLocker.status at h
  unfold NonceLocker.onLocked
  rw [dif_neg (not_not.2 hlen)]
  split at h
  · cases h
  · rename_i hl
    simp [hl]
  · cases h

end

/-! ## Calls that succeed -/

section
variable {l : NonceLocker} {n : Nonce}

theorem lockNonce_of_free {now : Int} (ticketB : Vector UInt8 8)
    (hlen : n.nonce.length = nonceLen) (hexp : n.isExpiredAt now = false)
    (hfree : l.status n.nonce = .free) :
    ∃ t l', l.lockNonce now (.ok ticketB) n = (.ok t, l') ∧
      ∀ b, l'.status b = if b = n.nonce then .locked t else l.status b := by
  obtain ⟨e, he⟩ | ⟨t, l', hok, -, hstatus⟩ := lockNonce_cases now (.ok ticketB) l n
  · exfalso
    unfold NonceLocker.lockNonce at he
    rw [dif_neg (not_not.2 hlen), hexp, if_neg Bool.false_ne_true] at he
    unfold NonceLocker.status at hfree
    split at hfree
    next hnone => simp [hnone] at he
    next => cases hfree
    next => cases hfree
  · exact ⟨t, l', hok, hstatus⟩

theorem consumeNonce_of_locked {t : Bytes} (ticket : Bytes) (h : l.status n.nonce = .locked t) :
    ∃ l', l.consumeNonce n ticket = (none, l') ∧
      ∀ b, l'.status b = if b = n.nonce then .consumed else l.status b := by
  obtain ⟨hlen, hok⟩ := onLocked_of_locked ticket h _
  exact ⟨_, hok, fun b => l.status_insert n.nonce b hlen _⟩

theorem releaseNonce_of_locked {t : Bytes} (ticket : Bytes) (h : l.status n.nonce = .locked t) :
    ∃ l', l.releaseNonce n ticket = (none, l') ∧
      ∀ b, l'.status b = if b = n.nonce then .free else l.status b := by
  obtain ⟨_, hok⟩ := onLocked_of_locked ticket h _
  exact ⟨_, hok, fun b => l.status_erase n.nonce b⟩

end

end InMem

end Anonpay
