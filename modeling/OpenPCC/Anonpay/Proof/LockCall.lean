import OpenPCC.Anonpay.LockCall
import OpenPCC.Anonpay.Proof.Exec

/-!
# What a retried call of a ticket locker returns

The in-memory locker executes each of its calls once: a lock, a consumption or a release changes the
nonce so that the same request is refused afterwards (`LockerCall.oneShot`). A retry that follows an
execution is answered with an error, so a call succeeds exactly if none of its executions is wasted.
-/

namespace Anonpay

open Go Httpretry

/-! ## The handlers -/

theorem Nonce.unmarshalProto_marshalProto {n : Nonce} (h : n.nonce.length = nonceLen) :
    Nonce.unmarshalProto (some n.marshalProto) = .ok { n with unsafeIncrement := false } := by
  simp [Nonce.unmarshalProto, Nonce.marshalProto, h]

namespace LockApi

theorem convertInputError_ne_ok (err : Err) (body : Bytes) : convertInputError err ≠ .ok body := by
  unfold convertInputError
  split
  next => nofun
  next =>
    split
    next => nofun
    next =>
      split
      next => nofun
      next => nofun

theorem wrapped_eq_ok_iff {endpoint format : String} {result : Except Failure Reply}
    {body : Bytes} : wrapped endpoint format result = .ok body ↔ result = .ok (.ok body) := by
  match result with
  | .error f => simp [wrapped, doRequest]
  | .ok (.ok b) => simp [wrapped, doRequest]
  | .ok (.badRequest msg) => simp [wrapped, doRequest]
  | .ok (.conflict msg) => simp [wrapped, doRequest]
  | .ok (.gone msg) => simp [wrapped, doRequest]
  | .ok .serverError => simp [wrapped, doRequest]

section

variable {L : Type} {n : Nonce} {ticket : Bytes} {l l' : L}

theorem lockHandler_refuses {locker : TicketLockerContract L}
    (h : ∃ e, locker.lockNonce { n with unsafeIncrement := false } l = (.error e, l)) :
    (lockHandler locker ⟨some n.marshalProto⟩ l).2 = l ∧
      ∀ body, (lockHandler locker ⟨some n.marshalProto⟩ l).1 ≠ .ok body := by
  obtain ⟨e, he⟩ := h
  by_cases hlen : n.nonce.length = nonceLen
  · simp [lockHandler, Nonce.unmarshalProto_marshalProto hlen, he, convertInputError_ne_ok]
  · simp [lockHandler, Nonce.unmarshalProto, Nonce.marshalProto, hlen]

theorem lockHandler_grants {locker : TicketLockerContract L} (hlen : n.nonce.length = nonceLen)
    (h : locker.lockNonce { n with unsafeIncrement := false } l = (.ok ticket, l')) :
    lockHandler locker ⟨some n.marshalProto⟩ l = (.ok ticket, l') := by
  simp [lockHandler, Nonce.unmarshalProto_marshalProto hlen, h]

variable {targetFunc : Nonce → Bytes → L → Option Err × L}

theorem unlockHandler_refuses
    (h : ∃ e, targetFunc { n with unsafeIncrement := false } ticket l = (some e, l)) :
    (unlockHandler targetFunc ⟨some n.marshalProto, ticket⟩ l).2 = l ∧
      ∀ body, (unlockHandler targetFunc ⟨some n.marshalProto, ticket⟩ l).1 ≠ .ok body := by
  obtain ⟨e, he⟩ := h
  by_cases hlen : n.nonce.length = nonceLen
  · simp [unlockHandler, Nonce.unmarshalProto_marshalProto hlen, he, convertInputError_ne_ok]
  · simp [unlockHandler, Nonce.unmarshalProto, Nonce.marshalProto, hlen]

theorem unlockHandler_grants (hlen : n.nonce.length = nonceLen)
    (h : targetFunc { n with unsafeIncrement := false } ticket l = (none, l')) :
    unlockHandler targetFunc ⟨some n.marshalProto, ticket⟩ l = (.ok [], l') := by
  simp [unlockHandler, Nonce.unmarshalProto_marshalProto hlen, h]

end

end LockApi

namespace LockerCall

theorem clientReturn_eq_ok_iff (call : LockerCall) {result : Except Failure LockApi.Reply}
    {body : Bytes} : call.clientReturn result = .ok body ↔ result = .ok (.ok body) := by
  cases call <;> exact LockApi.wrapped_eq_ok_iff

theorem Succeeds.exists_ok {call : LockerCall} {result : Except Failure LockApi.Reply}
    {l : InMem.NonceLocker} (h : call.Succeeds (call.clientReturn result) l) :
    ∃ body, result = .ok (.ok body) := by
  cases call with
  | lockNonce nonce =>
    obtain ⟨ticket, hok, -⟩ := h
    exact ⟨ticket, (clientReturn_eq_ok_iff _).1 hok⟩
  | consumeNonce nonce ticket | releaseNonce nonce ticket =>
    obtain ⟨⟨body, hok⟩, -⟩ := h
    exact ⟨body, (clientReturn_eq_ok_iff _).1 hok⟩

theorem serve_of_ready {call : LockerCall} {i : LockInput} {l : InMem.NonceLocker}
    (h : call.Ready l) (hi : call.Works i) :
    ∃ body l', call.protocol.serve i l = (.ok body, l') ∧ call.Done l' ∧
      call.Succeeds (.ok body) l' := by
  cases call with
  | lockNonce n =>
    obtain ⟨hlen, hfree⟩ := h
    obtain ⟨now, rand⟩ := i
    obtain ⟨hexp, ticketB, rfl⟩ := hi
    obtain ⟨t, l', hlock, hstatus⟩ :=
      InMem.lockNonce_of_free (n := { n with unsafeIncrement := false }) ticketB hlen hexp hfree
    have hlocked := (hstatus n.nonce).trans (if_pos rfl)
    exact ⟨t, l', LockApi.lockHandler_grants hlen hlock, ⟨t, hlocked⟩, t, rfl, hlocked⟩
  | consumeNonce n ticket =>
    have hlen := InMem.NonceLocker.length_of_locked h
    obtain ⟨l', hok, hstatus⟩ :=
      InMem.consumeNonce_of_locked (n := { n with unsafeIncrement := false }) ticket h
    have hdone := (hstatus n.nonce).trans (if_pos rfl)
    exact ⟨[], l', LockApi.unlockHandler_grants hlen hok, hdone, ⟨[], rfl⟩, hdone⟩
  | releaseNonce n ticket =>
    have hlen := InMem.NonceLocker.length_of_locked h
    obtain ⟨l', hok, hstatus⟩ :=
      InMem.releaseNonce_of_locked (n := { n with unsafeIncrement := false }) ticket h
    have hdone := (hstatus n.nonce).trans (if_pos rfl)
    exact ⟨[], l', LockApi.unlockHandler_grants hlen hok, hdone, ⟨[], rfl⟩, hdone⟩

theorem serve_of_done {call : LockerCall} (i : LockInput) {l : InMem.NonceLocker}
    (h : call.Done l) :
    (call.protocol.serve i l).2 = l ∧ ∀ body, (call.protocol.serve i l).1 ≠ .ok body := by
  cases call with
  | lockNonce n =>
    obtain ⟨ticket, hlocked⟩ := h
    refine LockApi.lockHandler_refuses ?_
    obtain he | ⟨t, l', -, hfree, -⟩ :=
      InMem.lockNonce_cases i.now i.rand l { n with unsafeIncrement := false }
    · exact he
    · cases hlocked.symm.trans hfree
  | consumeNonce n ticket =>
    refine LockApi.unlockHandler_refuses ?_
    obtain he | ⟨t, l', -, hlocked, -⟩ :=
      InMem.consumeNonce_cases l { n with unsafeIncrement := false } ticket
    · exact he
    · cases h.symm.trans hlocked
  | releaseNonce n ticket =>
    refine LockApi.unlockHandler_refuses ?_
    obtain he | ⟨t, l', -, hlocked, -⟩ :=
      InMem.releaseNonce_cases l { n with unsafeIncrement := false } ticket
    · exact he
    · cases h.symm.trans hlocked

theorem Ready.not_done {call : LockerCall} {l : InMem.NonceLocker} (h : call.Ready l) :
    ¬ call.Done l := by
  intro hdone
  cases call with
  | lockNonce n =>
    obtain ⟨ticket, hlocked⟩ := hdone
    cases h.2.symm.trans hlocked
  | consumeNonce n ticket => cases h.symm.trans hdone
  | releaseNonce n ticket => cases h.symm.trans hdone

theorem oneShot (call : LockerCall) :
    Rpc.OneShot call.protocol call.Works call.Ready call.Done
      fun reply l => call.Succeeds (call.clientReturn (.ok reply)) l where
  not_after h := h.not_done
  grants {i l} h hi := by
    obtain ⟨body, l', hserve, hdone, hsucceeds⟩ := serve_of_ready h hi
    rw [hserve, (clientReturn_eq_ok_iff call).2 rfl]
    exact ⟨hdone, hsucceeds⟩
  refuses i {l} h := by
    obtain ⟨hserver, hne⟩ := serve_of_done i h
    refine ⟨hserver, fun l' hsucceeds => ?_⟩
    obtain ⟨body, hbody⟩ := hsucceeds.exists_ok
    exact hne body (Except.ok.inj hbody)
  returns {reply l} h := by
    obtain ⟨body, hbody⟩ := h.exists_ok
    cases hbody
    rfl

/-- Other clients that do not touch the nonce do not interfere. -/
theorem Undisturbed.works {call : LockerCall} {a : LockAct} (h : call.Undisturbed a) :
    a.Works call.Works call.Ready call.Done
      fun reply l => call.Succeeds (call.clientReturn (.ok reply)) l := by
  cases a with
  | serve k i => exact h
  | other f =>
    intro l
    have hstatus := h l
    cases call <;> simp only [nonce] at hstatus <;>
      simp [Ready, Done, Succeeds, hstatus]
  | lose | deliver | fail | retry | stop => trivial

/-! ## Commits -/

theorem commit_eq_none_iff {L : Type} (nl : NonceLocker L) {tx : Transaction} {w : World L}
    (htx : tx.done = none) (hw : w.ctx = none) :
    (World.exec nl tx.commit w).1.1 = none ↔
      (nl.consume (w.ctxAt 1) tx.credit.nonce tx.lockedNonce.ticket w.locker).1 = none := by
  rw [exec_commit nl tx w htx, hw]
  rcases hconsume :
    nl.consume (w.ctxAt 1) tx.credit.nonce tx.lockedNonce.ticket w.locker with ⟨_ | e, l⟩
  · simp [hconsume]
  · simp [hconsume]

/-- A call that was executed reports no error exactly if it has returned a body. -/
theorem reported_eq_none_iff {call : LockerCall} {c : LockCall} {reply : LockApi.Reply}
    (h : c.caller = .returned (.ok reply)) :
    call.reported c = none ↔ ∃ body, call.clientReturn (.ok reply) = .ok body := by
  rw [reported, h]
  cases hreturn : call.clientReturn (.ok reply) with
  | error e => simp [hreturn]
  | ok body => simp [hreturn]

/-- Over every run of a call in which no other client touches the nonce and the last attempt is
answered: the client returns the ticket of the lock that is held, or nil for the consumption or the
release that was asked for, exactly if no execution was wasted. A `Commit` that consumes the nonce
with the call reports no error exactly then. -/
theorem lockerCall_succeeds_iff (call : LockerCall) (l : InMem.NonceLocker) (acts : List LockAct)
    (reply : LockApi.Reply) (hready : call.Ready l)
    (he : Trace.Along (Rpc.Call.next call.protocol) (Rpc.Call.Enabled call.protocol) (.start l)
      acts)
    (hothers : ∀ a ∈ acts, call.Undisturbed a)
    (hanswered : (acts.foldl (Rpc.Call.next call.protocol) (.start l)).caller =
      .returned (.ok reply)) :
    let c := acts.foldl (Rpc.Call.next call.protocol) (.start l)
    let kept := Trace.Along (Rpc.Call.next call.protocol) (fun c a => ¬ call.Wastes c a) (.start l)
      acts
    (call.Succeeds (call.clientReturn (.ok reply)) c.server ↔ kept) ∧
      ∀ nonce ticket, call = .consumeNonce nonce ticket →
        ∀ (nl : NonceLocker InMem.NonceLocker) (tx : Transaction) (w : World InMem.NonceLocker),
          tx.done = none → w.ctx = none →
          nl.consume (w.ctxAt 1) tx.credit.nonce tx.lockedNonce.ticket w.locker =
            (call.reported c, c.server) →
          ((World.exec nl tx.commit w).1.1 = none ↔ kept) := by
  intro c kept
  obtain ⟨hdone, hiff⟩ :=
    call.oneShot.good_iff_along hready he (fun a ha => (hothers a ha).works) hanswered
  refine ⟨hiff, ?_⟩
  rintro nonce ticket rfl nl tx w htx hw hconsume
  rw [commit_eq_none_iff nl htx hw, hconsume, reported_eq_none_iff hanswered]
  exact (and_iff_left hdone).symm.trans hiff

/-! ## Lost responses -/

/-- A nonce of the time 0, and what the locker reads. -/
def exampleNonce : Nonce := ⟨0, List.replicate 16 7, false⟩

def exampleInput : LockInput := ⟨0, .ok (Vector.replicate 8 1)⟩

def exampleTicket : Bytes := Hex.encodeToString (List.replicate 8 1)

/-- The locker that has locked `exampleNonce`. -/
def exampleLocked : InMem.NonceLocker :=
  (InMem.NonceLocker.new.lockNonce exampleInput.now exampleInput.rand exampleNonce).2

/-- The response of the first attempt is lost, and the second one is answered. -/
def lostResponse : List LockAct :=
  let timeout : Failure := .doError { err := .new "timeout" [], netErr := true, timeout := true }
  [.serve 0 exampleInput, .lose 0, .fail timeout, .retry, .serve 0 exampleInput, .deliver]

/-- `LockNonce` returns `ErrNonceLocked` for the lock it holds. `Commit` fails for the nonce it has
consumed. -/
theorem lost_response_fails :
    let lock := LockerCall.lockNonce exampleNonce
    let locked := lostResponse.foldl (Rpc.Call.next lock.protocol) (.start .new)
    let consume := LockerCall.consumeNonce exampleNonce exampleTicket
    let consumed := lostResponse.foldl (Rpc.Call.next consume.protocol) (.start exampleLocked)
    let nl : NonceLocker InMem.NonceLocker :=
      { InMem.nonceLocker 0 exampleInput.rand with
        consume := fun _ _ _ _ => (consume.reported consumed, consumed.server) }
    let tx : Transaction :=
      ⟨⟨.accepting⟩, ⟨⟨false, 4, by decide⟩, exampleNonce, []⟩, ⟨exampleTicket⟩, none⟩
    lock.Ready .new ∧ consume.Ready exampleLocked ∧
      (∀ a ∈ lostResponse, lock.Undisturbed a ∧ consume.Undisturbed a) ∧
      Trace.Along (Rpc.Call.next lock.protocol) (Rpc.Call.Enabled lock.protocol) (.start .new)
        lostResponse ∧
      Trace.Along (Rpc.Call.next consume.protocol) (Rpc.Call.Enabled consume.protocol)
        (.start exampleLocked) lostResponse ∧
      lock.reported locked =
        some (.errorf "failed to send lock request: %w" [] (.var .nonceLocked)) ∧
      locked.server.status exampleNonce.nonce = .locked exampleTicket ∧
      consume.reported consumed =
        some (.errorf "failed to send consume request: %w" [] (.var .nonceConsumed)) ∧
      consumed.server.status exampleNonce.nonce = .consumed ∧
      (World.exec nl tx.commit ⟨exampleLocked, .new, [], none⟩).1.1 ≠ none := by
  intro lock locked consume consumed nl tx
  have hlocked : exampleLocked.status exampleNonce.nonce = .locked exampleTicket := by decide
  have hlock : lock.Works exampleInput := ⟨by decide, _, rfl⟩
  have hconsume : consume.Works exampleInput := trivial
  refine ⟨⟨rfl, by decide⟩, hlocked, ?_, by decide, by decide, by decide, by decide, by decide,
    by decide, by decide⟩
  simp [lostResponse, Undisturbed, hlock, hconsume]

/-- The request of the first attempt is lost and the second one is answered. -/
theorem lockerCall_succeeds_locked :
    let lock := LockerCall.lockNonce exampleNonce
    let refused : Failure :=
      .doError { err := .new "connection refused" [], netErr := true, connectionRefused := true }
    let acts : List LockAct := [.lose 0, .fail refused, .retry, .serve 0 exampleInput, .deliver]
    let c := acts.foldl (Rpc.Call.next lock.protocol) (.start .new)
    lock.Ready .new ∧
      Trace.Along (Rpc.Call.next lock.protocol) (Rpc.Call.Enabled lock.protocol) (.start .new)
        acts ∧
      (∀ a ∈ acts, lock.Undisturbed a) ∧ c.caller = .returned (.ok (.ok exampleTicket)) ∧
      lock.Succeeds (.ok exampleTicket) c.server ∧
      Trace.Along (Rpc.Call.next lock.protocol) (fun c a => ¬ lock.Wastes c a) (.start .new)
        acts := by
  intro lock refused acts c
  have hready : lock.Ready .new := ⟨rfl, by decide⟩
  have he : Trace.Along (Rpc.Call.next lock.protocol) (Rpc.Call.Enabled lock.protocol)
      (.start .new) acts := by
    decide
  have hworks : lock.Works exampleInput := ⟨by decide, _, rfl⟩
  have hothers : ∀ a ∈ acts, lock.Undisturbed a := by simp [acts, Undisturbed, hworks]
  have hanswered : c.caller = .returned (.ok (.ok exampleTicket)) := by decide
  have hsucceeds : lock.Succeeds (.ok exampleTicket) c.server :=
    ⟨exampleTicket, rfl, by decide⟩
  exact ⟨hready, he, hothers, hanswered, hsucceeds,
    (lockerCall_succeeds_iff lock .new acts (.ok exampleTicket) hready he hothers hanswered).1.1
      hsucceeds⟩

end LockerCall

end Anonpay
