import Mathlib.Data.List.Basic
import OpenPCC.Lib.Bag
import OpenPCC.Lib.Trace

/-!
# A call that is repeated over a network that loses messages

A caller sends a request and waits for the response. When the attempt fails, or its response asks
for it, the caller sends the request again, until it returns or stops. Each attempt is an exchange
of its own: its request or its response may be lost, and the server may execute the request after
the caller has given up the exchange. In between, others change the state of the server.

* A call is executed at most once exactly if the server never executes a request after it has
  executed one (`always_atMostOnce_iff`).
* A call that can be executed once and is refused afterwards (`OneShot`) returns the response of
  its execution exactly if no execution is wasted (`good_iff_along`): the caller does not give up
  an exchange that was executed, and the server does not execute one that was given up.
-/

namespace Rpc

variable {S I R E : Type}

/-- The reply of the server, and whether the message that is on its way is lost. -/
structure Exchange (R : Type) where
  reply : Option R := none
  lost : Bool := false
  deriving DecidableEq

/-- The caller waits for the newest exchange, has to decide whether it sends the request again, or
has returned. -/
inductive Caller (R E : Type) where
  | waiting
  | failed (result : Except E R)
  | returned (result : Except E R)
  deriving DecidableEq

/-- The exchanges of a call, the newest one first. -/
structure Call (S R E : Type) where
  server : S
  exchanges : List (Exchange R)
  caller : Caller R E

/-- What a step of a call is. The server reads `i` when it executes a request. -/
inductive Act (S I E : Type) where
  | serve (k : Nat) (i : I)
  | lose (k : Nat)
  | deliver
  | fail (error : E)
  | retry
  | stop (ended : Option E)
  | other (f : S → S)

structure Protocol (S I R E : Type) where
  serve : I → S → R × S
  /-- whether the caller may try again after a result -/
  again : Except E R → Bool

def Call.start (s : S) : Call S R E := ⟨s, [{}], .waiting⟩

def Protocol.settle (p : Protocol S I R E) (result : Except E R) : Caller R E :=
  if p.again result then .failed result else .returned result

namespace Call

variable (p : Protocol S I R E) (c : Call S R E)

def step : Act S I E → Option (Call S R E)
  | .serve k i =>
    match c.exchanges[k]? with
    | some ⟨none, false⟩ =>
      let (r, server) := p.serve i c.server
      some { c with server, exchanges := c.exchanges.set k { reply := some r } }
    | _ => none
  | .lose k =>
    match c.exchanges[k]? with
    | some x => some { c with exchanges := c.exchanges.set k { x with lost := true } }
    | none => none
  | .deliver =>
    match c.caller, c.exchanges with
    | .waiting, ⟨some r, false⟩ :: _ => some { c with caller := p.settle (.ok r) }
    | _, _ => none
  | .fail error =>
    match c.caller with
    | .waiting => some { c with caller := p.settle (.error error) }
    | _ => none
  | .retry =>
    match c.caller with
    | .failed _ => some { c with exchanges := {} :: c.exchanges, caller := .waiting }
    | _ => none
  | .stop ended =>
    match c.caller with
    | .failed result => some { c with caller := .returned (ended.elim result .error) }
    | _ => none
  | .other f => some { c with server := f c.server }

def Enabled (a : Act S I E) : Prop := (c.step p a).isSome

instance (a : Act S I E) : Decidable (c.Enabled p a) := inferInstanceAs (Decidable (_ = _))

def next (a : Act S I E) : Call S R E := (c.step p a).getD c

/-- What a step does. -/
inductive Moves : Act S I E → Call S R E → Prop where
  | serve {k : Nat} {i : I} (h : c.exchanges[k]? = some {}) :
      Moves (.serve k i)
        { c with
          server := (p.serve i c.server).2
          exchanges := c.exchanges.set k { reply := some (p.serve i c.server).1 } }
  | lose {k : Nat} {x : Exchange R} (h : c.exchanges[k]? = some x) :
      Moves (.lose k) { c with exchanges := c.exchanges.set k { x with lost := true } }
  | deliver {r : R} {past : List (Exchange R)} (hcaller : c.caller = .waiting)
      (h : c.exchanges = { reply := some r } :: past) :
      Moves .deliver { c with caller := p.settle (.ok r) }
  | fail {error : E} (hcaller : c.caller = .waiting) :
      Moves (.fail error) { c with caller := p.settle (.error error) }
  | retry {result : Except E R} (hcaller : c.caller = .failed result) :
      Moves .retry { c with exchanges := {} :: c.exchanges, caller := .waiting }
  | stop {result : Except E R} {ended : Option E} (hcaller : c.caller = .failed result) :
      Moves (.stop ended) { c with caller := .returned (ended.elim result .error) }
  | other {f : S → S} : Moves (.other f) { c with server := f c.server }

variable {p c}

theorem moves_of_step {a : Act S I E} {c' : Call S R E} (h : c.step p a = some c') :
    c.Moves p a c' := by
  cases a with
  | serve k i =>
    simp only [step] at h
    split at h
    next hk =>
      cases h
      exact .serve hk
    next => cases h
  | lose k =>
    simp only [step] at h
    split at h
    next x hk =>
      cases h
      exact .lose hk
    next => cases h
  | deliver =>
    simp only [step] at h
    split at h
    next r past hcaller hx =>
      cases h
      exact .deliver hcaller hx
    next => cases h
  | fail error =>
    simp only [step] at h
    split at h
    next hcaller =>
      cases h
      exact .fail hcaller
    next => cases h
  | retry =>
    simp only [step] at h
    split at h
    next result hcaller =>
      cases h
      exact .retry hcaller
    next => cases h
  | stop ended =>
    simp only [step] at h
    split at h
    next result hcaller =>
      cases h
      exact .stop hcaller
    next => cases h
  | other f =>
    cases h
    exact .other

theorem moves_of_enabled {a : Act S I E} (h : c.Enabled p a) : c.Moves p a (c.next p a) := by
  obtain ⟨c', hc'⟩ := Option.isSome_iff_exists.1 h
  rw [next, hc', Option.getD_some]
  exact moves_of_step hc'

end Call

/-- The response that the caller has got. -/
def Caller.response : Caller R E → Option R
  | .failed (.ok r) | .returned (.ok r) => some r
  | _ => none

theorem Protocol.settle_cases (p : Protocol S I R E) (result : Except E R) :
    p.settle result = .failed result ∨ p.settle result = .returned result := by
  unfold settle
  split
  · exact .inl rfl
  · exact .inr rfl

theorem Protocol.settle_ne_waiting (p : Protocol S I R E) (result : Except E R) :
    p.settle result ≠ .waiting := by
  obtain h | h := p.settle_cases result <;> simp [h]

@[simp] theorem Protocol.response_settle_ok (p : Protocol S I R E) (r : R) :
    (p.settle (.ok r)).response = some r := by
  obtain h | h := p.settle_cases (.ok r) <;> simp [h, Caller.response]

@[simp] theorem Protocol.response_settle_error (p : Protocol S I R E) (error : E) :
    (p.settle (.error error)).response = none := by
  obtain h | h := p.settle_cases (.error error) <;> simp [h, Caller.response]

/-- A caller that stops keeps the response of its last attempt, unless it returns another error. -/
theorem Caller.response_of_stop {result : Except E R} {ended : Option E} {r : R}
    (h : (Caller.returned (ended.elim result .error)).response = some r) :
    (Caller.failed result).response = some r := by
  cases ended with
  | some e => cases h
  | none => cases result <;> exact h

/-! ## Executions -/

namespace Call

variable {p : Protocol S I R E} (granted : R → Bool) {c c' : Call S R E} {a : Act S I E}

/-- How often the server has granted the request. -/
def executions (c : Call S R E) : Nat := c.exchanges.countP fun x => x.reply.any granted

/-- The server grants the request in this step. -/
def Executes (p : Protocol S I R E) (c : Call S R E) : Act S I E → Prop
  | .serve _ i => granted (p.serve i c.server).1 = true
  | _ => False

/-- The call is executed at most once, and it is executed if the caller returns its response. -/
def AtMostOnce (c : Call S R E) : Prop :=
  c.executions granted ≤ 1 ∧
    ∀ r, c.caller = .returned (.ok r) → granted r = true → c.executions granted = 1

theorem Moves.executions (h : c.Moves p a c') :
    (c.Executes granted p a ∧ c'.executions granted = c.executions granted + 1) ∨
      (¬ c.Executes granted p a ∧ c'.executions granted = c.executions granted) := by
  cases h with
  | @serve k i hk =>
    have hset := Bag.countP_set hk { reply := some (p.serve i c.server).1 }
      fun x => x.reply.any granted
    simp only [Option.any_none, Option.any_some, Bool.false_eq_true, if_false] at hset
    split at hset
    next hgranted => exact .inl ⟨hgranted, hset⟩
    next hgranted => exact .inr ⟨hgranted, hset⟩
  | @lose k x hk =>
    have hset := Bag.countP_set hk { x with lost := true } fun x => x.reply.any granted
    exact .inr ⟨id, Nat.add_right_cancel hset⟩
  | deliver hcaller hx => exact .inr ⟨id, rfl⟩
  | fail hcaller => exact .inr ⟨id, rfl⟩
  | retry hcaller => exact .inr ⟨id, by simp [Call.executions]⟩
  | stop hcaller => exact .inr ⟨id, rfl⟩
  | other => exact .inr ⟨id, rfl⟩

/-- The caller got a response that grants the request only if the server has granted it. -/
def Backed (c : Call S R E) : Prop :=
  ∀ r, c.caller.response = some r → granted r = true → 0 < c.executions granted

variable {granted}

theorem Backed.moves (hb : c.Backed granted) (h : c.Moves p a c') : c'.Backed granted := by
  intro r hr hgranted
  have hkept : c.caller.response = some r → 0 < c'.executions granted := by
    intro hr
    have hpos := hb r hr hgranted
    obtain ⟨-, heq⟩ | ⟨-, heq⟩ := h.executions granted <;> omega
  cases h with
  | serve hk => exact hkept hr
  | lose hk => exact hkept hr
  | @deliver r' past hcaller hx =>
    obtain rfl : r' = r := by simpa using hr
    have hmem : { reply := some r' } ∈ c.exchanges := by simp [hx]
    exact List.countP_pos_iff.2 ⟨_, hmem, hgranted⟩
  | fail hcaller => simp at hr
  | retry hcaller => cases hr
  | stop hcaller => exact hkept (hcaller ▸ Caller.response_of_stop hr)
  | other => exact hkept hr

theorem atMostOnce_iff (hb : c.Backed granted) :
    c.AtMostOnce granted ↔ c.executions granted ≤ 1 := by
  refine ⟨And.left, fun hle => ⟨hle, fun r hr hgranted => ?_⟩⟩
  have hpos := hb r (by rw [hr]; rfl) hgranted
  omega

theorem always_backed (granted : R → Bool) {s : S} {acts : List (Act S I E)}
    (he : Trace.Along (next p) (Enabled p) (start s) acts) :
    Trace.Always (next p) (Backed granted) (start s) acts := by
  refine Trace.always_of_step (fun c a hb hea => ?_) (fun r hr => ?_) he
  · exact hb.moves (moves_of_enabled hea)
  · cases hr

/-- A run keeps to one execution exactly if no step executes the call again. -/
theorem always_atMostOnce_iff {s : S} {acts : List (Act S I E)}
    (he : Trace.Along (next p) (Enabled p) (start s) acts) :
    Trace.Always (next p) (AtMostOnce granted) (start s) acts ↔
      Trace.Along (next p) (fun c a => ¬ (0 < c.executions granted ∧ c.Executes granted p a))
        (start s) acts := by
  have hbacked := always_backed granted he
  have hstart : (start s : Call S R E).executions granted ≤ 1 := Nat.zero_le 1
  rw [hbacked.congr fun c hb => (atMostOnce_iff hb).trans (and_iff_right hb).symm]
  refine Trace.always_iff_along (fun c a ⟨hb, hle⟩ hea => ?_) ⟨hbacked.head, hstart⟩ he
  have hmoves := moves_of_enabled hea
  rw [and_iff_right (hb.moves hmoves)]
  obtain ⟨hexec, heq⟩ | ⟨hexec, heq⟩ := hmoves.executions granted
  · rw [heq, and_iff_left hexec]
    omega
  · rw [heq]
    exact iff_of_true hle fun h => hexec h.2

end Call

/-! ## Calls that are executed once -/

/-- A server in a state of `Before` executes the request and is in one of `After`, where it refuses
the request and changes nothing. `Good r s`: `r` is the response of the execution that has led to
the state `s`. The server can execute the request whenever it reads an input of `works`. -/
structure OneShot (p : Protocol S I R E) (works : I → Prop) (Before After : S → Prop)
    (Good : R → S → Prop) : Prop where
  not_after {s : S} : Before s → ¬ After s
  grants {i : I} {s : S} : Before s → works i →
    After (p.serve i s).2 ∧ Good (p.serve i s).1 (p.serve i s).2
  refuses (i : I) {s : S} : After s → (p.serve i s).2 = s ∧ ∀ s', ¬ Good (p.serve i s).1 s'
  returns {r : R} {s : S} : Good r s → p.again (.ok r) = false

/-- The server can execute the request, and others do not interfere with the call. -/
def Act.Works (works : I → Prop) (Before After : S → Prop) (Good : R → S → Prop) :
    Act S I E → Prop
  | .serve _ i => works i
  | .other f => ∀ s, (Before s → Before (f s)) ∧ (After s → After (f s)) ∧
      ∀ r, Good r s → Good r (f s)
  | _ => True

/-- The caller gives up an exchange after the call was executed, or the server executes an exchange
that was given up. -/
def Call.Wastes (Before After : S → Prop) (c : Call S R E) : Act S I E → Prop
  | .fail _ => After c.server
  | .serve k _ => Before c.server ∧ (k ≠ 0 ∨ c.caller ≠ .waiting)
  | _ => False

namespace OneShot

variable {p : Protocol S I R E} {works : I → Prop} {Before After : S → Prop}
  {Good : R → S → Prop} {c c' : Call S R E} {a : Act S I E}

/-- The states of a call of which no execution was wasted: it is not executed yet, the caller waits
for the exchange that was executed, or it has returned the response. -/
inductive Sound (Before After : S → Prop) (Good : R → S → Prop) (c : Call S R E) : Prop where
  | fresh (before : Before c.server) (unserved : ∀ x ∈ c.exchanges, x.reply = none)
      (noResponse : c.caller.response = none)
  | executed {r : R} {lost : Bool} (after : After c.server) (good : Good r c.server)
      (waiting : c.caller = .waiting) (current : c.exchanges[0]? = some ⟨some r, lost⟩)
  | returned {r : R} (after : After c.server) (good : Good r c.server)
      (result : c.caller = .returned (.ok r))

/-- The states after an execution was wasted: no response that the caller has or waits for is the
one of the execution. -/
structure Spoiled (After : S → Prop) (Good : R → S → Prop) (c : Call S R E) : Prop where
  after : After c.server
  response : ∀ r, c.caller.response = some r → ∀ s, ¬ Good r s
  current : c.caller = .waiting → ∀ x, c.exchanges[0]? = some x →
    ∀ r, x.reply = some r → ∀ s, ¬ Good r s

variable (O : OneShot p works Before After Good)

include O

theorem sound_moves (hc : Sound Before After Good c) (h : c.Moves p a c')
    (hw : a.Works works Before After Good) (hwastes : ¬ c.Wastes Before After a) :
    Sound Before After Good c' := by
  cases hc with
  | fresh before unserved noResponse =>
    cases h with
    | @serve k i hk =>
      obtain ⟨hafter, hgood⟩ := O.grants before hw
      obtain ⟨rfl, hwaiting⟩ : k = 0 ∧ c.caller = .waiting := by
        simpa [Call.Wastes, before] using hwastes
      obtain ⟨hlt, -⟩ := List.getElem?_eq_some_iff.1 hk
      exact .executed hafter hgood hwaiting (List.getElem?_set_self hlt)
    | @lose k x hk =>
      refine .fresh before (fun y hy => ?_) noResponse
      obtain hy | rfl := List.mem_or_eq_of_mem_set hy
      · exact unserved y hy
      · exact unserved x (List.mem_of_getElem? hk)
    | @deliver r past hcaller hx =>
      -- there is nothing to deliver before the call is executed
      have hnone := unserved { reply := some r } (by simp [hx])
      cases hnone
    | fail hcaller => exact .fresh before unserved (by simp)
    | retry hcaller =>
      refine .fresh before (fun y hy => ?_) rfl
      obtain rfl | hy := List.mem_cons.1 hy
      · rfl
      · exact unserved y hy
    | @stop result ended hcaller =>
      refine .fresh before unserved (Option.eq_none_iff_forall_ne_some.2 fun r hr => ?_)
      rw [hcaller, Caller.response_of_stop hr] at noResponse
      cases noResponse
    | other => exact .fresh ((hw c.server).1 before) unserved noResponse
  | @executed r lost after good waiting current =>
    cases h with
    | @serve k i hk =>
      obtain ⟨hserver, -⟩ := O.refuses i after
      -- the newest exchange has its reply, so this is another one
      have hk0 : k ≠ 0 := by
        rintro rfl
        rw [current] at hk
        cases hk
      refine .executed ?_ ?_ waiting ((List.getElem?_set_ne hk0).trans current)
      · simpa only [hserver] using after
      · simpa only [hserver] using good
    | @lose k x hk =>
      by_cases hk0 : k = 0
      · subst hk0
        obtain rfl : ⟨some r, lost⟩ = x := Option.some.inj (current.symm.trans hk)
        obtain ⟨hlt, -⟩ := List.getElem?_eq_some_iff.1 hk
        exact .executed after good waiting (List.getElem?_set_self hlt)
      · exact .executed after good waiting ((List.getElem?_set_ne hk0).trans current)
    | @deliver r' past hcaller hx =>
      rw [hx] at current
      cases current
      refine .returned after good ?_
      simp [Protocol.settle, O.returns good]
    | fail hcaller => exact absurd after hwastes
    | retry hcaller => nomatch waiting.symm.trans hcaller
    | stop hcaller => nomatch waiting.symm.trans hcaller
    | other =>
      obtain ⟨-, hafter, hgood⟩ := hw c.server
      exact .executed (hafter after) (hgood r good) waiting current
  | @returned r after good result =>
    cases h with
    | @serve k i hk =>
      obtain ⟨hserver, -⟩ := O.refuses i after
      exact .returned (by simpa only [hserver]) (by simpa only [hserver]) result
    | lose hk => exact .returned after good result
    | deliver hcaller hx => nomatch result.symm.trans hcaller
    | fail hcaller => nomatch result.symm.trans hcaller
    | retry hcaller => nomatch result.symm.trans hcaller
    | stop hcaller => nomatch result.symm.trans hcaller
    | other =>
      obtain ⟨-, hafter, hgood⟩ := hw c.server
      exact .returned (hafter after) (hgood r good) result

theorem spoiled_of_wastes (hc : Sound Before After Good c) (h : c.Moves p a c')
    (hw : a.Works works Before After Good) (hwastes : c.Wastes Before After a) :
    Spoiled After Good c' := by
  cases h with
  | @serve k i hk =>
    obtain ⟨before, hstale⟩ := hwastes
    cases hc with
    | fresh _ unserved noResponse =>
      refine ⟨(O.grants before hw).1, by simp [noResponse], fun hwaiting x hx r hr => ?_⟩
      have hk0 : k ≠ 0 := hstale.resolve_right (not_not.2 hwaiting)
      rw [List.getElem?_set_ne hk0] at hx
      rw [unserved x (List.mem_of_getElem? hx)] at hr
      cases hr
    | executed after => exact absurd after (O.not_after before)
    | returned after => exact absurd after (O.not_after before)
  | fail hcaller =>
    exact ⟨hwastes, by simp, fun hwaiting => absurd hwaiting (p.settle_ne_waiting _)⟩
  | lose | deliver | retry | stop | other => exact hwastes.elim

theorem spoiled_moves (hc : Spoiled After Good c) (h : c.Moves p a c')
    (hw : a.Works works Before After Good) : Spoiled After Good c' := by
  cases h with
  | @serve k i hk =>
    obtain ⟨hserver, hbad⟩ := O.refuses i hc.after
    refine ⟨by simpa only [hserver] using hc.after, hc.response, fun hwaiting x hx r hr => ?_⟩
    rw [List.getElem?_set] at hx
    split at hx
    · split at hx
      · cases hx
        cases hr
        exact hbad
      · cases hx
    · exact hc.current hwaiting x hx r hr
  | @lose k x hk =>
    refine ⟨hc.after, hc.response, fun hwaiting y hy r hr => ?_⟩
    rw [List.getElem?_set] at hy
    split at hy
    · split at hy
      · cases hy
        subst k
        exact hc.current hwaiting x hk r hr
      · cases hy
    · exact hc.current hwaiting y hy r hr
  | @deliver r past hcaller hx =>
    refine ⟨hc.after, fun r' hr' => ?_, fun hwaiting => absurd hwaiting (p.settle_ne_waiting _)⟩
    obtain rfl : r = r' := by simpa using hr'
    exact hc.current hcaller _ (by rw [hx]; rfl) r rfl
  | @fail error hcaller =>
    exact ⟨hc.after, by simp, fun hwaiting => absurd hwaiting (p.settle_ne_waiting _)⟩
  | retry hcaller =>
    refine ⟨hc.after, nofun, fun _ x hx r hr => ?_⟩
    cases hx
    cases hr
  | stop hcaller =>
    exact ⟨hc.after, fun r hr => hc.response r (hcaller ▸ Caller.response_of_stop hr), nofun⟩
  | other => exact ⟨(hw c.server).2.1 hc.after, hc.response, hc.current⟩

section

variable {s : S} {acts : List (Act S I E)} {r : R} (hs : Before s)
  (he : Trace.Along (Call.next p) (Call.Enabled p) (.start s) acts)
  (hworks : ∀ a ∈ acts, a.Works works Before After Good)

include hs he hworks

theorem sound_or_spoiled :
    (Trace.Along (Call.next p) (fun c a => ¬ c.Wastes Before After a) (.start s) acts ∧
        Sound Before After Good (acts.foldl (Call.next p) (.start s))) ∨
      (¬ Trace.Along (Call.next p) (fun c a => ¬ c.Wastes Before After a) (.start s) acts ∧
        Spoiled After Good (acts.foldl (Call.next p) (.start s))) := by
  have hstart : Sound Before After Good (Call.start s : Call S R E) :=
    .fresh hs (by simp [Call.start]) rfl
  exact Trace.along_or_of_step
    (fun c a hc ⟨hea, hw⟩ hwastes => O.sound_moves hc (Call.moves_of_enabled hea) hw hwastes)
    (fun c a hc ⟨hea, hw⟩ hwastes =>
      O.spoiled_of_wastes hc (Call.moves_of_enabled hea) hw (not_not.1 hwastes))
    (fun c a hc ⟨hea, hw⟩ => O.spoiled_moves hc (Call.moves_of_enabled hea) hw) hstart
    (he.and_forall_mem hworks)

/-- A call of which the last attempt was answered was executed, and it returns the response of its
execution exactly if no execution was wasted. -/
theorem good_iff_along
    (hreturned : (acts.foldl (Call.next p) (.start s)).caller = .returned (.ok r)) :
    After (acts.foldl (Call.next p) (.start s)).server ∧
      (Good r (acts.foldl (Call.next p) (.start s)).server ↔
        Trace.Along (Call.next p) (fun c a => ¬ c.Wastes Before After a) (.start s) acts) := by
  obtain ⟨hall, hsound⟩ | ⟨hnot, hspoiled⟩ := O.sound_or_spoiled hs he hworks
  · cases hsound with
    | fresh _ _ noResponse =>
      rw [hreturned] at noResponse
      cases noResponse
    | executed _ _ waiting => nomatch waiting.symm.trans hreturned
    | returned after good result =>
      cases result.symm.trans hreturned
      exact ⟨after, iff_of_true good hall⟩
  · have hbad := hspoiled.response r (by rw [hreturned]; rfl)
    exact ⟨hspoiled.after, iff_of_false (hbad _) hnot⟩

end

end OneShot

end Rpc
