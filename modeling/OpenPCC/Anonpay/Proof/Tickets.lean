import Mathlib.Data.List.Induction
import OpenPCC.Anonpay.NonceLocker

/-!
# Ticket exclusivity of the in-memory locker

A run is any list of locker calls, by any clients. `holder` reads off the calls and replies made
so far which ticket holds the lock of a nonce: the one the last `LockNonce` on it returned, unless
the nonce was consumed or released since. A call is `Exclusive` when it consumes or releases only
with the holder's ticket and changes nothing with any other.

`Run.Inv` ties the table to the calls: the stored ticket is the holder's. The locker never
compares tickets (`onLocked_of_locked`), so a call is exclusive exactly when it shows the ticket
of the holder to a locked nonce (`Run.Inv.exclusive_iff`), and `runs_exclusive_iff` says the same
of whole runs.
-/

namespace Anonpay.InMem

open Go

/-- A call of the locker. -/
inductive LockerCall where
  | lock (now : Int) (rand : Except Err (Vector UInt8 8)) (n : Nonce)
  | consume (n : Nonce) (ticket : Bytes)
  | release (n : Nonce) (ticket : Bytes)

inductive LockerReply where
  | ticket (t : Bytes)
  | done
  | failed (e : Err)
  deriving DecidableEq, Repr

def LockerCall.exec (l : NonceLocker) : LockerCall → LockerReply × NonceLocker
  | .lock now rand n =>
    match l.lockNonce now rand n with
    | (.ok t, l') => (.ticket t, l')
    | (.error e, l') => (.failed e, l')
  | .consume n t =>
    match l.consumeNonce n t with
    | (none, l') => (.done, l')
    | (some e, l') => (.failed e, l')
  | .release n t =>
    match l.releaseNonce n t with
    | (none, l') => (.done, l')
    | (some e, l') => (.failed e, l')

/-- The nonce and the ticket a call shows to the locker. -/
def LockerCall.shows : LockerCall → Option (Nonce × Bytes)
  | .lock _ _ _ => none
  | .consume n t => some (n, t)
  | .release n t => some (n, t)

def LockerCall.nonce : LockerCall → Nonce
  | .lock _ _ n => n
  | .consume n _ => n
  | .release n _ => n

/-! ## Runs and lock holders -/

/-- The locker and the calls made so far with their replies, oldest first. -/
structure Run where
  locker : NonceLocker
  history : List (LockerCall × LockerReply)

def Run.step (r : Run) (c : LockerCall) : Run :=
  ⟨(c.exec r.locker).2, r.history ++ [(c, (c.exec r.locker).1)]⟩

/-- The run of `calls` on a new locker. -/
def Run.after (calls : List LockerCall) : Run := calls.foldl Run.step ⟨.new, []⟩

theorem Run.after_snoc (calls : List LockerCall) (c : LockerCall) :
    Run.after (calls ++ [c]) = (Run.after calls).step c := by
  simp [Run.after]

/-- The tickets handed out. -/
def tickets (h : List (LockerCall × LockerReply)) : List Bytes :=
  h.filterMap fun
    | (_, .ticket t) => some t
    | _ => none

def holderStep (b : Bytes) (t : Option Bytes) : LockerCall × LockerReply → Option Bytes
  | (.lock _ _ n, .ticket t') => if b = n.nonce then some t' else t
  | (.consume n _, .done) => if b = n.nonce then none else t
  | (.release n _, .done) => if b = n.nonce then none else t
  | _ => t

/-- The ticket returned by the `LockNonce` call that holds the lock of the nonce bytes `b`. -/
def holder (h : List (LockerCall × LockerReply)) (b : Bytes) : Option Bytes :=
  h.foldl (holderStep b) none

theorem holder_snoc (h : List (LockerCall × LockerReply)) (x : LockerCall × LockerReply)
    (b : Bytes) : holder (h ++ [x]) b = holderStep b (holder h b) x := by
  simp [holder]

/-- The call `c` consumes or releases only with the holder's ticket, and changes nothing with
another one. -/
def Run.Exclusive (r : Run) (c : LockerCall) : Prop :=
  ∀ n t, c.shows = some (n, t) →
    ((c.exec r.locker).1 = .done → holder r.history n.nonce = some t) ∧
    (holder r.history n.nonce ≠ some t → (c.exec r.locker).2 = r.locker)

/-- The call `c` shows no ticket but the holder's to a locked nonce. -/
def Run.ShowsHolder (r : Run) (c : LockerCall) : Prop :=
  ∀ n t, c.shows = some (n, t) → ∀ t', holder r.history n.nonce = some t' → t' = t

/-! ## What a call can do -/

theorem holderStep_failed (b : Bytes) (t : Option Bytes) (c : LockerCall) (e : Err) :
    holderStep b t (c, .failed e) = t := by
  cases c <;> rfl

/-- A call fails and changes nothing, or gives its nonce a new status that the holder follows. -/
theorem LockerCall.exec_cases (l : NonceLocker) (c : LockerCall) :
    (∃ e, c.exec l = (.failed e, l)) ∨
      ∃ r s l', c.exec l = (r, l') ∧
        (∀ b, l'.status b = if b = c.nonce.nonce then s else l.status b) ∧
        ∀ b t, holderStep b t (c, r) = if b = c.nonce.nonce then s.ticket else t := by
  cases c with
  | lock now rand n =>
    rcases lockNonce_cases now rand l n with ⟨e, he⟩ | ⟨t, l', he, -, hst⟩
    · exact .inl ⟨e, by simp only [LockerCall.exec, he]⟩
    · exact .inr ⟨.ticket t, .locked t, l', by simp only [LockerCall.exec, he], hst,
        fun _ _ => rfl⟩
  | consume n t =>
    rcases consumeNonce_cases l n t with ⟨e, he⟩ | ⟨_, l', he, -, hst⟩
    · exact .inl ⟨e, by simp only [LockerCall.exec, he]⟩
    · exact .inr ⟨.done, .consumed, l', by simp only [LockerCall.exec, he], hst,
        fun _ _ => rfl⟩
  | release n t =>
    rcases releaseNonce_cases l n t with ⟨e, he⟩ | ⟨_, l', he, -, hst⟩
    · exact .inl ⟨e, by simp only [LockerCall.exec, he]⟩
    · exact .inr ⟨.done, .free, l', by simp only [LockerCall.exec, he], hst,
        fun _ _ => rfl⟩

section
variable {l : NonceLocker} {c : LockerCall} {n : Nonce} {t : Bytes}

theorem LockerCall.exec_shows_cases (h : c.shows = some (n, t)) :
    (∃ e, c.exec l = (.failed e, l)) ∨ ∃ t', l.status n.nonce = .locked t' := by
  cases c with
  | lock _ _ _ => cases h
  | consume n t =>
    cases h
    rcases consumeNonce_cases l n t with ⟨e, he⟩ | ⟨t', _, -, hs, -⟩
    · exact .inl ⟨e, by simp only [LockerCall.exec, he]⟩
    · exact .inr ⟨t', hs⟩
  | release n t =>
    cases h
    rcases releaseNonce_cases l n t with ⟨e, he⟩ | ⟨t', _, -, hs, -⟩
    · exact .inl ⟨e, by simp only [LockerCall.exec, he]⟩
    · exact .inr ⟨t', hs⟩

/-- On a locked nonce a call succeeds with any ticket. -/
theorem LockerCall.exec_shows_of_locked (h : c.shows = some (n, t)) {t' : Bytes}
    (hs : l.status n.nonce = .locked t') : (c.exec l).1 = .done := by
  cases c with
  | lock _ _ _ => cases h
  | consume n t =>
    cases h
    obtain ⟨l', hok, -⟩ := consumeNonce_of_locked t hs
    simp only [LockerCall.exec, hok]
  | release n t =>
    cases h
    obtain ⟨l', hok, -⟩ := releaseNonce_of_locked t hs
    simp only [LockerCall.exec, hok]

end

/-! ## The table holds the holder's ticket -/

/-- The stored ticket of every nonce is the one of its holder. -/
def Run.Inv (r : Run) : Prop := ∀ b, holder r.history b = (r.locker.status b).ticket

theorem Run.Inv.init : Run.Inv ⟨.new, []⟩ := fun b => by simp [holder, Status.ticket]

theorem Run.Inv.step {r : Run} (h : r.Inv) (c : LockerCall) : (r.step c).Inv := by
  unfold Run.step
  rcases c.exec_cases r.locker with ⟨e, he⟩ | ⟨reply, s, l', he, hst, hhold⟩
  · rw [he]
    intro b
    rw [holder_snoc, holderStep_failed]
    exact h b
  · rw [he]
    intro b
    rw [holder_snoc, hhold, hst, h b]
    split <;> rfl

theorem Run.Inv.after (calls : List LockerCall) : (Run.after calls).Inv := by
  induction calls using List.reverseRecOn with
  | nil => exact .init
  | append_singleton calls c ih => rw [Run.after_snoc]; exact ih.step c

/-! ## Exclusivity -/

theorem Run.Inv.exclusive_iff {r : Run} (h : r.Inv) (c : LockerCall) :
    r.Exclusive c ↔ r.ShowsHolder c := by
  constructor
  · intro hex n t hs t' hh
    have hst : r.locker.status n.nonce = .locked t' := Status.eq_locked (h _ ▸ hh)
    have hdone := LockerCall.exec_shows_of_locked hs hst
    have heq := (hex n t hs).1 hdone
    exact Option.some.inj (hh.symm.trans heq)
  · intro hsh n t hs
    rcases LockerCall.exec_shows_cases (l := r.locker) hs with ⟨e, he⟩ | ⟨t', hst⟩
    · rw [he]
      exact ⟨nofun, fun _ => rfl⟩
    · -- the nonce is locked, so the ticket shown is the holder's
      have hh : holder r.history n.nonce = some t' := by rw [h, hst]; rfl
      have heq := hsh n t hs t' hh
      exact ⟨fun _ => heq ▸ hh, fun hne => absurd (heq ▸ hh) hne⟩

/-- **Ticket exclusivity.** The calls of a run are all exclusive exactly when none of them shows
another ticket than the holder's to a locked nonce: the locker itself does not enforce it. -/
theorem runs_exclusive_iff (calls : List LockerCall) :
    (∀ pre c post, calls = pre ++ c :: post → (Run.after pre).Exclusive c) ↔
      ∀ pre c post, calls = pre ++ c :: post → (Run.after pre).ShowsHolder c := by
  constructor
  · exact fun h pre c post hs => ((Run.Inv.after pre).exclusive_iff c).1 (h pre c post hs)
  · exact fun h pre c post hs => ((Run.Inv.after pre).exclusive_iff c).2 (h pre c post hs)

/-- A client locks a nonce and releases it, a second client locks it, and the first client
consumes it with its old ticket. -/
def staleTicketRun : List LockerCall :=
  let n : Nonce := ⟨0, List.replicate 16 7, false⟩
  let first := Vector.replicate 8 (1 : UInt8)
  let second := Vector.replicate 8 (2 : UInt8)
  [.lock 0 (.ok first) n, .release n (Hex.encodeToString first.toList),
    .lock 0 (.ok second) n, .consume n (Hex.encodeToString first.toList)]

/-- With pairwise distinct tickets, a ticket of an earlier lock consumes the lock of another
client. -/
theorem stale_ticket_consumes :
    (tickets (Run.after staleTicketRun).history).Nodup ∧
      ¬ ∀ pre c post, staleTicketRun = pre ++ c :: post → (Run.after pre).Exclusive c := by
  refine ⟨by decide, fun h => ?_⟩
  have hex := h (staleTicketRun.take 3) (staleTicketRun.getLast (by decide)) [] (by rfl) _ _ rfl
  exact absurd (hex.1 (by decide)) (by decide)

end Anonpay.InMem
