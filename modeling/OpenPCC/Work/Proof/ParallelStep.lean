import Mathlib.Tactic.Abel
import OpenPCC.Lib.Bag
import OpenPCC.Lib.Trace
import OpenPCC.Work.ParallelStep

/-!
# Which inputs of a parallel step are accounted for

Every input that was received is with the goroutine, a job, the loop or in one of the logs, and only
there (`Ids.ids`). When the step returns nothing is on the way, so the input was delivered, it
failed and the step returns an error (`Inputs.failed`), or its output could not be sent. In the last
case the step has not called `RemainingInput`, and it returns an error only if something else failed
(`Moves.failing_iff`).
-/

namespace Work

open Go

variable {α β : Type}

/-- The job whose input or output the result carries. -/
def JobResult.ids (r : JobResult α β) : Multiset Nat :=
  r.remainingIn.elim 0 (fun _ => {r.jobID}) + r.output.elim 0 (fun _ => {r.jobID})

/-- A result carries nothing, an input that failed with its error, or an output. -/
inductive JobResult.WellFormed (received : List (Nat × α)) : JobResult α β → Prop
  | empty (i : Nat) (err : Option Err) : WellFormed received ⟨i, none, none, err⟩
  | failed (i : Nat) (x : α) (err : Err) (h : (i, x) ∈ received) :
    WellFormed received ⟨i, some x, none, some err⟩
  | output (i : Nat) (out : β) : WellFormed received ⟨i, none, some out, none⟩

theorem JobResult.WellFormed.append {received : List (Nat × α)} {r : JobResult α β}
    (h : r.WellFormed received) (l : List (Nat × α)) : r.WellFormed (received ++ l) := by
  cases h with
  | empty i err => exact .empty i err
  | failed i x err h => exact .failed i x err (List.mem_append_left l h)
  | output i out => exact .output i out

namespace Producer

/-- The input that is being added to the pool. -/
def input : Producer α β → List (Nat × α)
  | adding i x => [(i, x)]
  | _ => []

/-- The result that is about to be sent. -/
def result : Producer α β → List (JobResult α β)
  | reporting r => [r]
  | _ => []

/-- The job whose input or result the goroutine has. -/
def ids : Producer α β → Multiset Nat
  | adding i _ => {i}
  | reporting r => r.ids
  | _ => 0

/-- The id of the next job, while the goroutine still receives. -/
def nextID : Producer α β → Option Nat
  | claiming i | receiving i => some i
  | adding i _ => some (i + 1)
  | _ => none

end Producer

def Collector.ids : Collector β → Multiset Nat
  | sending i _ => {i}
  | _ => 0

namespace ParallelRun

variable {cfg : ParallelConfig} {s s' : ParallelRun α β} {a : ParallelAct α β}

/-- The jobs that the loop has not received the result of, or is sending the output of. -/
def onTheWay (s : ParallelRun α β) : Multiset Nat :=
  s.producer.ids + (s.jobs.map Prod.fst : List Nat) + (s.reports.map JobResult.ids).sum +
    (s.results.map JobResult.ids).sum + s.collector.ids

/-- The jobs that the loop has dealt with. -/
def settled (s : ParallelRun α β) : Multiset Nat :=
  (s.delivered.map Prod.fst : List Nat) + (s.discarded.map Prod.fst : List Nat) +
    (s.failed.map Prod.fst : List Nat) + (s.unsent.map Prod.fst : List Nat)

/-! ## What a step does -/

inductive Moves (cfg : ParallelConfig) (s : ParallelRun α β) :
    ParallelAct α β → ParallelRun α β → Prop
  | feed (x : α) : Moves cfg s (.feed x) { s with input := s.input ++ [x] }
  | closeInput : Moves cfg s .closeInput { s with inputClosed := true }
  | cancelStep (d : CtxDone) :
    Moves cfg s (.cancelStep d) { s with stepCtx := some d, ctx := s.ctx <|> some d }
  | claim (i : Nat) (hp : s.producer = .claiming i) :
    Moves cfg s .claim { s with slots := s.slots + 1, producer := .receiving i }
  | claimCancelled (i : Nat) (d : CtxDone) (hp : s.producer = .claiming i) :
    Moves cfg s .claimCancelled
      { s with producer := .reporting ⟨i, none, none, some d.cause⟩ }
  | receive (i : Nat) (x : α) (input : List α) (hp : s.producer = .receiving i) :
    Moves cfg s .receive
      { s with input, producer := .adding i x, received := s.received ++ [(i, x)] }
  | receiveClosed (i : Nat) (hp : s.producer = .receiving i) :
    Moves cfg s .receiveClosed { s with producer := .reporting ⟨i, none, none, none⟩ }
  | receiveCancelled (i : Nat) (d : CtxDone) (hp : s.producer = .receiving i) :
    Moves cfg s .receiveCancelled
      { s with producer := .reporting ⟨i, none, none, some d.err⟩ }
  | addJob (i : Nat) (x : α) (hp : s.producer = .adding i x) :
    Moves cfg s .addJob { s with producer := .claiming (i + 1), jobs := s.jobs ++ [(i, x)] }
  | addJobFails (i : Nat) (x : α) (err err' : Err) (hp : s.producer = .adding i x) :
    Moves cfg s (.addJobFails err)
      { s with producer := .reporting ⟨i, some x, none, some err'⟩ }
  | report (r : JobResult α β) (hp : s.producer = .reporting r) :
    Moves cfg s .report { s with producer := .waiting, results := s.results ++ [r] }
  | closeResults (hp : s.producer = .waiting) (hj : s.jobs = []) (hr : s.reports = []) :
    Moves cfg s .closeResults { s with producer := .returned }
  | jobReturns (k i : Nat) (x : α) (out : β) (hk : s.jobs[k]? = some (i, x)) :
    Moves cfg s (.jobReturns k out)
      { s with
        jobs := s.jobs.eraseIdx k
        reports := s.reports ++ [⟨i, none, some out, none⟩] }
  | jobFails (k i : Nat) (x : α) (ctx : Option CtxDone) (err err' : Err)
      (hk : s.jobs[k]? = some (i, x)) :
    Moves cfg s (.jobFails k err)
      { s with
        ctx := ctx
        jobs := s.jobs.eraseIdx k
        reports := s.reports ++ [⟨i, some x, none, some err'⟩] }
  | jobReports (k : Nat) (r : JobResult α β) (hk : s.reports[k]? = some r) :
    Moves cfg s (.jobReports k)
      { s with reports := s.reports.eraseIdx k, results := s.results ++ [r] }
  | collect (r : JobResult α β) (results : List (JobResult α β)) (hc : s.collector = .receiving)
      (hr : s.results = r :: results) :
    Moves cfg s .collect ({ s with results }.handle cfg r)
  | send (i : Nat) (out : β) (hc : s.collector = .sending i out) :
    Moves cfg s .send ({ s with delivered := s.delivered ++ [(i, out)] }.sent none)
  | sendFails (i : Nat) (out : β) (err : Err) (hc : s.collector = .sending i out) :
    Moves cfg s .sendFails ({ s with unsent := s.unsent ++ [(i, out)] }.sent (some err))
  | finish (hc : s.collector = .receiving) (hr : s.results = []) (hp : s.producer = .returned) :
    Moves cfg s .finish { s with collector := .returned }

theorem Moves.of_producerStep (h : s.producerStep cfg a = some s') : Moves cfg s a s' := by
  unfold producerStep at h
  split at h
  next i hp =>
    split at h
    · cases h
      exact .claim i hp
    · cases h
  next i hp =>
    obtain ⟨d, -, h⟩ := Option.bind_eq_some_iff.1 h
    cases h
    exact .claimCancelled i d hp
  next i hp =>
    split at h
    · cases h
    next x input _ =>
      cases h
      exact .receive i x input hp
  next i hp =>
    split at h
    · cases h
      exact .receiveClosed i hp
    · cases h
  next i hp =>
    obtain ⟨d, -, h⟩ := Option.bind_eq_some_iff.1 h
    cases h
    exact .receiveCancelled i d hp
  next i x hp =>
    cases h
    exact .addJob i x hp
  next err i x hp =>
    cases h
    exact .addJobFails i x err _ hp
  next r hp =>
    split at h
    · cases h
      exact .report r hp
    · cases h
  next hp =>
    split at h
    next hnone =>
      cases h
      exact .closeResults hp (List.length_eq_zero_iff.1 hnone.1) (List.length_eq_zero_iff.1 hnone.2)
    · cases h
  next => cases h

theorem Moves.of_jobStep (h : s.jobStep cfg a = some s') : Moves cfg s a s' := by
  unfold jobStep at h
  split at h
  next k out =>
    obtain ⟨⟨i, x⟩, hk, h⟩ := Option.bind_eq_some_iff.1 h
    cases h
    exact .jobReturns k i x out hk
  next k err =>
    obtain ⟨⟨i, x⟩, hk, h⟩ := Option.bind_eq_some_iff.1 h
    cases h
    exact .jobFails k i x _ err _ hk
  next k =>
    obtain ⟨r, hk, h⟩ := Option.bind_eq_some_iff.1 h
    split at h
    · cases h
      exact .jobReports k r hk
    · cases h
  next => cases h

theorem Moves.of_collectorStep (h : s.collectorStep cfg a = some s') : Moves cfg s a s' := by
  unfold collectorStep at h
  split at h
  next hc =>
    split at h
    · cases h
    next r results hr =>
      cases h
      exact .collect r results hc hr
  next i out hc =>
    cases h
    exact .send i out hc
  next i out hc =>
    obtain ⟨d, -, h⟩ := Option.bind_eq_some_iff.1 h
    cases h
    exact .sendFails i out d.err hc
  next hc =>
    split at h
    next hr hp =>
      cases h
      exact .finish hc hr hp
    · cases h
  next => cases h

theorem Moves.of_step (h : s.step cfg a = some s') : Moves cfg s a s' := by
  unfold step at h
  split at h
  next x =>
    split at h <;> cases h
    exact .feed x
  next =>
    split at h <;> cases h
    exact .closeInput
  next d =>
    split at h <;> cases h
    exact .cancelStep d
  all_goals first
    | exact .of_producerStep h
    | exact .of_jobStep h
    | exact .of_collectorStep h

theorem Moves.of_enabled (h : s.Enabled cfg a) : Moves cfg s a (s.next cfg a) := by
  obtain ⟨s', hs'⟩ := Option.isSome_iff_exists.1 h
  rw [next, hs']
  exact .of_step hs'

/-! ## What the loop does with a result -/

inductive Handles (cfg : ParallelConfig) (s : ParallelRun α β) :
    JobResult α β → ParallelRun α β → Prop
  | empty (i slots : Nat) : Handles cfg s ⟨i, none, none, none⟩ { s with slots }
  | stopped (i slots : Nat) (err e : Err) :
    Handles cfg s ⟨i, none, none, some err⟩ { s with slots, err := some e }
  | failed (i slots : Nat) (x : α) (err e e' : Err) :
    Handles cfg s ⟨i, some x, none, some err⟩
      { s with
        slots, err := some e
        failed := s.failed ++ [(i, x)]
        remaining := if cfg.hasRemainingInput then s.remaining ++ [(i, x, some e')]
          else s.remaining }
  | sending (i : Nat) (out : β) :
    Handles cfg s ⟨i, none, some out, none⟩ { s with collector := .sending i out }
  | discarded (i slots : Nat) (out : β) :
    Handles cfg s ⟨i, none, some out, none⟩
      { s with slots, discarded := s.discarded ++ [(i, out)] }

theorem Handles.frame {r : JobResult α β} (h : Handles cfg s r s') :
    s'.received = s.received ∧ s'.producer = s.producer ∧ s'.unsent = s.unsent := by
  cases h <;> exact ⟨rfl, rfl, rfl⟩

theorem join_some_right (err : Option Err) (e : Err) : ∃ e', join err (some e) = some e' := by
  cases err with
  | none => exact ⟨_, rfl⟩
  | some err => exact ⟨_, rfl⟩

theorem Handles.of_wellFormed {received : List (Nat × α)} {r : JobResult α β}
    (hr : r.WellFormed received) : Handles cfg s r (s.handle cfg r) := by
  cases hr with
  | empty i err =>
    cases err with
    | none => exact .empty i _
    | some err =>
      obtain ⟨e, he⟩ := join_some_right s.err (.errorf "job %d failed: %w" [.int i] err)
      simp only [handle, remain, Option.map_some, he]
      exact .stopped i _ err e
  | failed i x err _ =>
    obtain ⟨e, he⟩ := join_some_right s.err (.errorf "job %d failed: %w" [.int i] err)
    simp only [handle, remain, Option.map_some, he]
    exact .failed i _ x err e _
  | output i out =>
    simp only [handle, remain, Option.map_none]
    split
    · exact .sending i out
    · exact .discarded i _ out

theorem sent_eq (s : ParallelRun α β) (sendErr : Option Err) :
    ∃ err slots, s.sent sendErr = { s with collector := .receiving, err, slots } ∧
      (err = none ↔ s.err = none) := by
  cases he : s.err with
  | none =>
    refine ⟨none, s.slots - 1, ?_, Iff.rfl⟩
    simp only [sent, he, freeSlot]
  | some e =>
    refine ⟨some (e.join sendErr), s.slots, ?_, by simp⟩
    simp only [sent, he, join]

theorem unsent_sent (s : ParallelRun α β) (sendErr : Option Err) :
    (s.sent sendErr).unsent = s.unsent := by
  obtain ⟨err, slots, hs, -⟩ := sent_eq s sendErr
  rw [hs]

/-! ## The inputs and the results -/

structure Inputs (cfg : ParallelConfig) (s : ParallelRun α β) : Prop where
  adding : ∀ p ∈ s.producer.input, p ∈ s.received
  jobs : ∀ p ∈ s.jobs, p ∈ s.received
  reporting : ∀ r ∈ s.producer.result, r.WellFormed s.received
  reports : ∀ r ∈ s.reports, r.WellFormed s.received
  results : ∀ r ∈ s.results, r.WellFormed s.received
  failed : ∀ p ∈ s.failed, p ∈ s.received ∧ s.err ≠ none ∧
    (cfg.hasRemainingInput = true → ∃ err, (p.1, p.2, err) ∈ s.remaining)
  remaining : ∀ c ∈ s.remaining, (c.1, c.2.1) ∈ s.failed

theorem Inputs.handle {r : JobResult α β} (hr : r.WellFormed s.received) (h : Inputs cfg s) :
    Inputs cfg (s.handle cfg r) := by
  have hhandles : Handles cfg s r (s.handle cfg r) := .of_wellFormed hr
  generalize s.handle cfg r = s' at hhandles
  cases hhandles with
  | empty | sending | discarded => exact { h with }
  | stopped =>
    exact { h with failed := fun p hp => ⟨(h.failed p hp).1, nofun, (h.failed p hp).2.2⟩ }
  | failed i slots x err e e' =>
    cases hr with
    | failed _ _ _ hmem =>
    refine { h with failed := fun p hp => ?_, remaining := fun c hc => ?_ }
    · rcases List.mem_append.1 hp with hp | hp
      · refine ⟨(h.failed p hp).1, nofun, fun hset => ?_⟩
        obtain ⟨err, herr⟩ := (h.failed p hp).2.2 hset
        exact ⟨err, by simp [hset, herr]⟩
      · obtain rfl := List.mem_singleton.1 hp
        exact ⟨hmem, nofun, fun hset => ⟨some e', by simp [hset]⟩⟩
    · dsimp only at hc
      split at hc
      · rcases List.mem_append.1 hc with hc | hc
        · exact List.mem_append_left _ (h.remaining c hc)
        · obtain rfl := List.mem_singleton.1 hc
          exact List.mem_append_right _ List.mem_cons_self
      · exact List.mem_append_left _ (h.remaining c hc)

theorem Inputs.sent (h : Inputs cfg s) (sendErr : Option Err) : Inputs cfg (s.sent sendErr) := by
  obtain ⟨err, slots, hs, herr⟩ := sent_eq s sendErr
  rw [hs]
  exact { h with
    failed := fun p hp =>
      ⟨(h.failed p hp).1, mt herr.1 (h.failed p hp).2.1, (h.failed p hp).2.2⟩ }

theorem Inputs.moves (h : Inputs cfg s) (hs : Moves cfg s a s') : Inputs cfg s' := by
  cases hs with
  | feed | closeInput | cancelStep | finish => exact { h with }
  | claim | closeResults => exact { h with adding := nofun, reporting := nofun }
  | claimCancelled i d | receiveCancelled i d =>
    exact { h with
      adding := nofun
      reporting := List.forall_mem_singleton.2 (.empty i _) }
  | receiveClosed i =>
    exact { h with
      adding := nofun
      reporting := List.forall_mem_singleton.2 (.empty i none) }
  | receive i x input =>
    exact {
      adding := List.forall_mem_singleton.2 (List.mem_append_right _ List.mem_cons_self)
      jobs := fun p hp => List.mem_append_left _ (h.jobs p hp)
      reporting := nofun
      reports := fun r hr => (h.reports r hr).append _
      results := fun r hr => (h.results r hr).append _
      failed := fun p hp => ⟨List.mem_append_left _ (h.failed p hp).1, (h.failed p hp).2⟩
      remaining := h.remaining }
  | addJob i x hp =>
    have hx : (i, x) ∈ s.received := h.adding _ (by rw [hp]; exact List.mem_cons_self)
    exact { h with
      adding := nofun
      jobs := List.forall_mem_append.2 ⟨h.jobs, List.forall_mem_singleton.2 hx⟩
      reporting := nofun }
  | addJobFails i x err err' hp =>
    have hx : (i, x) ∈ s.received := h.adding _ (by rw [hp]; exact List.mem_cons_self)
    exact { h with
      adding := nofun
      reporting := List.forall_mem_singleton.2 (.failed i x err' hx) }
  | report r hp =>
    have hr : r.WellFormed s.received := h.reporting r (by rw [hp]; exact List.mem_cons_self)
    exact { h with
      adding := nofun
      reporting := nofun
      results := List.forall_mem_append.2 ⟨h.results, List.forall_mem_singleton.2 hr⟩ }
  | jobReturns k i x out hk =>
    exact { h with
      jobs := fun p hp => h.jobs p (List.mem_of_mem_eraseIdx hp)
      reports := List.forall_mem_append.2
        ⟨h.reports, List.forall_mem_singleton.2 (.output i out)⟩ }
  | jobFails k i x ctx err err' hk =>
    have hx := h.jobs _ (List.mem_of_getElem? hk)
    exact { h with
      jobs := fun p hp => h.jobs p (List.mem_of_mem_eraseIdx hp)
      reports := List.forall_mem_append.2
        ⟨h.reports, List.forall_mem_singleton.2 (.failed i x err' hx)⟩ }
  | jobReports k r hk =>
    have hr := h.reports r (List.mem_of_getElem? hk)
    exact { h with
      reports := fun r hr => h.reports r (List.mem_of_mem_eraseIdx hr)
      results := List.forall_mem_append.2 ⟨h.results, List.forall_mem_singleton.2 hr⟩ }
  | collect r results hc hr =>
    have hresults := h.results
    rw [hr, List.forall_mem_cons] at hresults
    exact Inputs.handle hresults.1 { h with results := hresults.2 }
  | send | sendFails =>
    apply Inputs.sent
    exact { h with }

/-! ## Where an input is -/

/-- Every input has an id of its own, and is at one place. -/
structure Ids (s : ParallelRun α β) : Prop where
  ids : ((s.received.map Prod.fst : List Nat) : Multiset Nat) = s.onTheWay + s.settled
  nodup : (s.received.map Prod.fst).Nodup
  fresh : ∀ i ∈ s.producer.nextID, ∀ p ∈ s.received, p.1 < i

theorem onTheWay_settled_handle {received : List (Nat × α)} {r : JobResult α β}
    (hr : r.WellFormed received) (hc : s.collector = .receiving) :
    (s.handle cfg r).onTheWay + (s.handle cfg r).settled = r.ids + s.onTheWay + s.settled := by
  have hhandles : Handles cfg s r (s.handle cfg r) := .of_wellFormed hr
  generalize s.handle cfg r = s' at hhandles ⊢
  cases hhandles with
  | empty | stopped | failed | sending | discarded =>
    simp only [onTheWay, settled, JobResult.ids, hc, Collector.ids, List.map_append, List.map_cons,
      List.map_nil, Bag.coe_append_singleton, Option.elim]
    abel

/-- The inputs change their places, and no input is received. -/
structure Keeps (s s' : ParallelRun α β) : Prop where
  received : s'.received = s.received
  ids : s'.onTheWay + s'.settled = s.onTheWay + s.settled
  nextID : ∀ i ∈ s'.producer.nextID, i ∈ s.producer.nextID

theorem Keeps.handle {r : JobResult α β} {results : List (JobResult α β)}
    (hwf : r.WellFormed s.received) (hc : s.collector = .receiving)
    (hr : s.results = r :: results) : Keeps s ({ s with results }.handle cfg r) := by
  obtain ⟨hreceived, hproducer, -⟩ :=
    Handles.frame (.of_wellFormed hwf : Handles cfg { s with results } r _)
  refine ⟨hreceived, ?_, by rw [hproducer]; exact fun i hi => hi⟩
  rw [onTheWay_settled_handle (s := { s with results }) hwf hc]
  simp only [onTheWay, settled, hr, List.map_cons, List.sum_cons]
  abel

theorem Keeps.sent (h : Keeps s { s' with collector := .receiving }) (sendErr : Option Err) :
    Keeps s (s'.sent sendErr) := by
  obtain ⟨err, slots, hs, -⟩ := sent_eq s' sendErr
  rw [hs]
  exact ⟨h.1, h.2, h.3⟩

theorem Moves.keeps (h : Inputs cfg s) (hs : Moves cfg s a s') (ha : a ≠ .receive) :
    Keeps s s' := by
  cases hs with
  | receive => exact absurd rfl ha
  | feed | closeInput | cancelStep => exact ⟨rfl, rfl, fun i hi => hi⟩
  | claim i hp =>
    refine ⟨rfl, ?_, by rw [hp]; exact fun i hi => hi⟩
    simp only [onTheWay, settled, hp, Producer.ids]
  | addJob i x hp =>
    refine ⟨rfl, ?_, by rw [hp]; exact fun i hi => hi⟩
    simp only [onTheWay, settled, hp, Producer.ids, List.map_append, List.map_cons, List.map_nil,
      Bag.coe_append_singleton]
    abel
  | claimCancelled i d hp | receiveClosed i hp | receiveCancelled i d hp
  | addJobFails i x err err' hp | closeResults hp =>
    refine ⟨rfl, ?_, nofun⟩
    simp only [onTheWay, settled, hp, Producer.ids, JobResult.ids, Option.elim, add_zero, zero_add]
  | report r hp =>
    refine ⟨rfl, ?_, nofun⟩
    simp only [onTheWay, settled, hp, Producer.ids, List.map_append, List.map_cons, List.map_nil,
      List.sum_append, List.sum_cons, List.sum_nil]
    abel
  | jobReturns k i x out hk | jobFails k i x ctx err err' hk =>
    refine ⟨rfl, ?_, fun i hi => hi⟩
    simp only [onTheWay, settled, Bag.coe_map_eraseIdx hk, JobResult.ids, Option.elim,
      List.map_append, List.map_cons, List.map_nil, List.sum_append, List.sum_cons, List.sum_nil]
    abel
  | jobReports k r hk =>
    refine ⟨rfl, ?_, fun i hi => hi⟩
    simp only [onTheWay, settled, Bag.sum_map_eraseIdx hk, List.map_append, List.map_cons,
      List.map_nil, List.sum_append, List.sum_cons, List.sum_nil]
    abel
  | collect r results hc hr =>
    exact .handle (h.results r (by rw [hr]; exact List.mem_cons_self)) hc hr
  | send i out hc | sendFails i out sendErr hc =>
    apply Keeps.sent
    refine ⟨rfl, ?_, fun i hi => hi⟩
    simp only [onTheWay, settled, hc, Collector.ids, List.map_append, List.map_cons, List.map_nil,
      Bag.coe_append_singleton]
    abel
  | finish hc =>
    refine ⟨rfl, ?_, fun i hi => hi⟩
    simp only [onTheWay, settled, hc, Collector.ids]

theorem Ids.receive {i : Nat} {x : α} {input : List α} (h : Ids s)
    (hp : s.producer = .receiving i) :
    Ids { s with input, producer := .adding i x, received := s.received ++ [(i, x)] } := by
  have hfresh : ∀ p ∈ s.received, p.1 < i := h.fresh i (by rw [hp]; rfl)
  refine ⟨?_, ?_, ?_⟩
  · have hids := h.ids
    simp only [onTheWay, settled, hp, Producer.ids] at hids ⊢
    rw [List.map_append, List.map_cons, List.map_nil, Bag.coe_append_singleton, hids]
    abel
  · rw [List.map_append, List.nodup_append]
    refine ⟨h.nodup, List.nodup_singleton i, fun j hj k hk => ?_⟩
    obtain ⟨p, hp, rfl⟩ := List.mem_map.1 hj
    rw [List.map_cons, List.map_nil, List.mem_singleton] at hk
    have := hfresh p hp
    omega
  · rintro _ ⟨⟩ p hp
    rcases List.mem_append.1 hp with hp | hp
    · have := hfresh p hp
      omega
    · rw [List.mem_singleton.1 hp]
      exact Nat.lt_succ_self i

theorem Ids.moves (h : Ids s) (hinputs : Inputs cfg s) (hs : Moves cfg s a s') : Ids s' := by
  by_cases ha : a = .receive
  · subst ha
    cases hs with
    | receive i x input hp => exact h.receive hp
  · have hkeeps := hs.keeps hinputs ha
    refine ⟨?_, ?_, fun i hi => ?_⟩
    · rw [hkeeps.received, hkeeps.ids, h.ids]
    · rw [hkeeps.received]
      exact h.nodup
    · rw [hkeeps.received]
      exact h.fresh i (hkeeps.nextID i hi)

/-! ## Failures -/

/-- The step has failed, or it will when the loop receives a result. -/
def Failing (s : ParallelRun α β) : Prop :=
  s.err ≠ none ∨ (∃ r ∈ s.producer.result, r.err ≠ none) ∨ (∃ r ∈ s.reports, r.err ≠ none) ∨
    ∃ r ∈ s.results, r.err ≠ none

theorem Handles.failing_iff {r : JobResult α β} (h : Handles cfg s r s') :
    s'.Failing ↔ s.Failing ∨ r.err ≠ none := by
  cases h <;> simp [Failing]

theorem Failing.congr_sent (s : ParallelRun α β) (sendErr : Option Err) :
    (s.sent sendErr).Failing ↔ s.Failing := by
  obtain ⟨err, slots, hs, herr⟩ := sent_eq s sendErr
  rw [hs, Failing, Failing, Ne, herr]

theorem Moves.failing_iff (h : Inputs cfg s) (hs : Moves cfg s a s') :
    s'.Failing ↔ s.Failing ∨ a.Fails := by
  cases hs with
  | feed | closeInput | cancelStep | finish => simp [Failing, ParallelAct.Fails]
  | claim i hp | claimCancelled i d hp | receive i x input hp | receiveClosed i hp
  | receiveCancelled i d hp | addJob i x hp | addJobFails i x err err' hp | closeResults hp =>
    simp [Failing, ParallelAct.Fails, hp, Producer.result]
  | report r hp =>
    simp only [Failing, ParallelAct.Fails, hp, Producer.result, List.mem_append, List.mem_singleton,
      or_and_right, exists_or, exists_eq_left, List.not_mem_nil, false_and, exists_false,
      or_false, false_or]
    apply iff_of_eq
    ac_rfl
  | jobReturns k i x out hk | jobFails k i x ctx err err' hk =>
    simp [Failing, ParallelAct.Fails]
  | jobReports k r hk =>
    simp only [Failing, ParallelAct.Fails, Bag.mem_iff_eraseIdx hk, List.mem_append,
      List.mem_singleton, or_and_right, exists_or, exists_eq_left, or_false]
    apply iff_of_eq
    ac_rfl
  | collect r results hc hr =>
    have hwf := h.results r (by rw [hr]; exact List.mem_cons_self)
    rw [(Handles.of_wellFormed (s := { s with results }) hwf).failing_iff]
    simp only [Failing, ParallelAct.Fails, hr, List.mem_cons, or_and_right, exists_or,
      exists_eq_left, or_false]
    apply iff_of_eq
    ac_rfl
  | send | sendFails =>
    rw [Failing.congr_sent]
    simp [Failing, ParallelAct.Fails]

theorem Moves.unsent_ne_nil_iff (h : Inputs cfg s) (hs : Moves cfg s a s') :
    s'.unsent ≠ [] ↔ s.unsent ≠ [] ∨ a = .sendFails := by
  cases hs with
  | collect r results hc hr =>
    have hwf := h.results r (by rw [hr]; exact List.mem_cons_self)
    rw [(Handles.of_wellFormed (s := { s with results }) hwf).frame.2.2]
    simp
  | send | sendFails => simp [unsent_sent]
  | _ => simp

/-! ## The end of the step -/

/-- When `results` is closed there are no jobs, and when the step has returned there are no
results. -/
structure Closed (s : ParallelRun α β) : Prop where
  jobs : s.producer = .returned → s.jobs = [] ∧ s.reports = []
  results : s.collector = .returned → s.producer = .returned ∧ s.results = []

theorem Handles.closed {r : JobResult α β} (h : Handles cfg s r s')
    (hc : s.collector = .receiving)
    (hjobs : s.producer = .returned → s.jobs = [] ∧ s.reports = []) : Closed s' := by
  cases h <;> exact ⟨hjobs, by simp [hc]⟩

theorem Closed.sent (hjobs : s.producer = .returned → s.jobs = [] ∧ s.reports = [])
    (sendErr : Option Err) : Closed (s.sent sendErr) := by
  obtain ⟨err, slots, hs, -⟩ := sent_eq s sendErr
  rw [hs]
  exact ⟨hjobs, nofun⟩

theorem Closed.moves (h : Closed s) (hinputs : Inputs cfg s) (hs : Moves cfg s a s') :
    Closed s' := by
  cases hs with
  | feed | closeInput | cancelStep => exact ⟨h.jobs, h.results⟩
  | claim i hp | claimCancelled i d hp | receive i x input hp | receiveClosed i hp
  | receiveCancelled i d hp | addJob i x hp | addJobFails i x err err' hp | report r hp =>
    refine ⟨nofun, fun hc => ?_⟩
    have hreturned := (h.results hc).1
    rw [hp] at hreturned
    cases hreturned
  | closeResults hp hj hr =>
    refine ⟨fun _ => ⟨hj, hr⟩, fun hc => ?_⟩
    have hreturned := (h.results hc).1
    rw [hp] at hreturned
    cases hreturned
  | jobReturns k i x out hk | jobFails k i x ctx err err' hk =>
    refine ⟨fun hp => ?_, h.results⟩
    rw [(h.jobs hp).1] at hk
    cases hk
  | jobReports k r hk =>
    have hopen : s.producer ≠ .returned := by
      intro hp
      rw [(h.jobs hp).2] at hk
      cases hk
    exact ⟨fun hp => absurd hp hopen, fun hc => absurd (h.results hc).1 hopen⟩
  | collect r results hc hr =>
    have hwf := hinputs.results r (by rw [hr]; exact List.mem_cons_self)
    exact (Handles.of_wellFormed (s := { s with results }) hwf).closed hc h.jobs
  | send | sendFails =>
    apply Closed.sent
    exact h.jobs
  | finish hc hr hp => exact ⟨h.jobs, fun _ => ⟨hp, hr⟩⟩

structure Inv (cfg : ParallelConfig) (s : ParallelRun α β) : Prop where
  inputs : Inputs cfg s
  ids : Ids s
  closed : Closed s

theorem Inv.init : Inv cfg ({} : ParallelRun α β) where
  inputs := ⟨nofun, nofun, nofun, nofun, nofun, nofun, nofun⟩
  ids := ⟨rfl, List.nodup_nil, nofun⟩
  closed := ⟨nofun, nofun⟩

theorem Inv.next (h : Inv cfg s) (he : s.Enabled cfg a) : Inv cfg (s.next cfg a) where
  inputs := h.inputs.moves (.of_enabled he)
  ids := h.ids.moves h.inputs (.of_enabled he)
  closed := h.closed.moves h.inputs (.of_enabled he)

/-- Every input of a step that has returned was delivered, is one that failed, or has an output that
could not be sent. -/
theorem Inv.received_eq (h : Inv cfg s) (hc : s.collector = .returned) :
    ((s.received.map Prod.fst : List Nat) : Multiset Nat) = s.settled := by
  obtain ⟨hp, hresults⟩ := h.closed.results hc
  obtain ⟨hjobs, hreports⟩ := h.closed.jobs hp
  have hids := h.ids.ids
  simpa [onTheWay, hp, hjobs, hreports, hresults, hc, Producer.ids, Collector.ids] using hids

theorem Inv.err_ne_none_iff (h : Inv cfg s) (hc : s.collector = .returned) :
    s.err ≠ none ↔ s.Failing := by
  obtain ⟨hp, hresults⟩ := h.closed.results hc
  obtain ⟨hjobs, hreports⟩ := h.closed.jobs hp
  simp [Failing, hp, hreports, hresults, Producer.result]

theorem Inv.mem_settled (h : Inv cfg s) (hc : s.collector = .returned) {i : Nat} {x : α}
    (hx : (i, x) ∈ s.received) :
    (∃ out, (i, out) ∈ s.delivered ∨ (i, out) ∈ s.discarded) ∨ (i, x) ∈ s.failed ∨
      ∃ out, (i, out) ∈ s.unsent := by
  have hmem : i ∈ s.settled := by
    rw [← h.received_eq hc, Multiset.mem_coe]
    exact List.mem_map_of_mem hx
  simp only [settled, Multiset.mem_add, Multiset.mem_coe, List.mem_map, Prod.exists,
    exists_and_right, exists_eq_right] at hmem
  obtain ((⟨out, hout⟩ | ⟨out, hout⟩) | ⟨x', hfailed⟩) | ⟨out, hout⟩ := hmem
  · exact .inl ⟨out, .inl hout⟩
  · exact .inl ⟨out, .inr hout⟩
  · -- The ids of the inputs are different, so it is the same input.
    have heq := List.inj_on_of_nodup_map h.ids.nodup hx (h.inputs.failed _ hfailed).1 rfl
    rw [heq]
    exact .inr (.inl hfailed)
  · exact .inr (.inr ⟨out, hout⟩)

/-- An output that could not be sent was not delivered, and its input is not one that failed. -/
theorem Inv.unsent_disjoint (h : Inv cfg s) (hc : s.collector = .returned) {i : Nat} {out : β}
    (hout : (i, out) ∈ s.unsent) :
    (¬∃ out', (i, out') ∈ s.delivered ∨ (i, out') ∈ s.discarded) ∧ ∀ x, (i, x) ∉ s.failed := by
  have hnodup : s.settled.Nodup := by
    rw [← h.received_eq hc]
    exact h.ids.nodup
  obtain ⟨-, -, hdisjoint⟩ := Multiset.nodup_add.1 hnodup
  have hi : i ∉ _ := Multiset.disjoint_right.1 hdisjoint
    (List.mem_map_of_mem (f := Prod.fst) hout : i ∈ s.unsent.map Prod.fst)
  simp only [Multiset.mem_add, Multiset.mem_coe, List.mem_map, Prod.exists, exists_and_right,
    exists_eq_right, not_or] at hi
  refine ⟨?_, fun x hx => hi.2 ⟨x, hx⟩⟩
  rintro ⟨out', hout' | hout'⟩
  · exact hi.1.1 ⟨out', hout'⟩
  · exact hi.1.2 ⟨out', hout'⟩

theorem Inv.exists_received_of_unsent (h : Inv cfg s) (hc : s.collector = .returned) {i : Nat}
    {out : β} (hout : (i, out) ∈ s.unsent) : ∃ x, (i, x) ∈ s.received := by
  have hmem : i ∈ s.settled := by
    refine Multiset.mem_add.2 (.inr ?_)
    exact List.mem_map_of_mem (f := Prod.fst) hout
  rw [← h.received_eq hc, Multiset.mem_coe] at hmem
  obtain ⟨⟨_, x⟩, hx, rfl⟩ := List.mem_map.1 hmem
  exact ⟨x, hx⟩

theorem Inv.accounts_iff (h : Inv cfg s) (hc : s.collector = .returned) :
    (∀ i x, (i, x) ∈ s.received → s.Accounts cfg i x) ↔
      s.unsent = [] ∨ cfg.hasRemainingInput = false ∧ s.err ≠ none := by
  constructor
  · intro hall
    by_cases hunsent : s.unsent = []
    · exact .inl hunsent
    obtain ⟨⟨i, out⟩, hout⟩ := List.exists_mem_of_ne_nil _ hunsent
    obtain ⟨x, hx⟩ := h.exists_received_of_unsent hc hout
    obtain ⟨hnot, hfailed⟩ := h.unsent_disjoint hc hout
    obtain hdelivered | ⟨herr, hremaining⟩ := hall i x hx
    · exact absurd hdelivered hnot
    refine .inr ⟨?_, herr⟩
    rw [← Bool.not_eq_true]
    intro hset
    obtain ⟨err, hcall⟩ := hremaining hset
    exact hfailed x (h.inputs.remaining _ hcall)
  · intro hcond i x hx
    obtain hdelivered | hfailed | ⟨out, hout⟩ := h.mem_settled hc hx
    · exact .inl hdelivered
    · exact .inr (h.inputs.failed _ hfailed).2
    · obtain hunsent | ⟨hset, herr⟩ := hcond
      · rw [hunsent] at hout
        cases hout
      · exact .inr ⟨herr, by simp [hset]⟩

/-! ## Whole runs -/

/-- In every run of the step that returns, the inputs are accounted for exactly if no output fails
to be sent, or `RemainingInput` is not set and something else fails. -/
theorem inputs_accounted_iff (cfg : ParallelConfig) (acts : List (ParallelAct α β))
    (hrun : Trace.Along (next cfg) (Enabled cfg) {} acts)
    (hc : (acts.foldl (next cfg) {}).collector = .returned) :
    (∀ i x, (i, x) ∈ (acts.foldl (next cfg) {}).received →
        (acts.foldl (next cfg) {}).Accounts cfg i x) ↔
      .sendFails ∉ acts ∨ cfg.hasRemainingInput = false ∧ ∃ a ∈ acts, a.Fails := by
  have hinv : Trace.Always (next cfg) (Inv cfg) ({} : ParallelRun α β) acts :=
    Trace.always_of_step (fun _ _ h he => h.next he) .init hrun
  have hsteps : Trace.Along (next cfg) (fun s a => Inv cfg s ∧ s.Enabled cfg a)
      ({} : ParallelRun α β) acts :=
    Trace.along_of_step (fun _ _ h he => Inv.next h he) (fun _ _ h he => ⟨h, he⟩) .init hrun
  have hfailing := Trace.foldl_iff_exists_mem
    (fun _ _ h => Moves.failing_iff h.1.inputs (.of_enabled h.2)) hsteps
  have hunsent := Trace.foldl_iff_exists_mem (F := fun s => s.unsent ≠ [])
    (fun _ _ h => Moves.unsent_ne_nil_iff h.1.inputs (.of_enabled h.2)) hsteps
  rw [hinv.last.accounts_iff hc, hinv.last.err_ne_none_iff hc, hfailing, ← not_ne_iff, hunsent]
  simp [Failing, Producer.result]

/-- The loop sends the only output. -/
def sentAll : List (ParallelAct Nat Nat) :=
  [.feed 7, .claim, .receive, .addJob, .closeInput, .claim, .receiveClosed, .jobReturns 0 8,
    .jobReports 0, .collect, .report, .closeResults, .send, .collect, .finish]

theorem inputs_accounted_iff_sentAll :
    (sentAll.foldl (next ⟨2, true, true⟩) {}).received = [(0, 7)] ∧
      ∀ i x, (i, x) ∈ (sentAll.foldl (next ⟨2, true, true⟩) {}).received →
        (sentAll.foldl (next ⟨2, true, true⟩) {}).Accounts ⟨2, true, true⟩ i x := by
  refine ⟨by decide, ?_⟩
  exact (inputs_accounted_iff ⟨2, true, true⟩ sentAll (by decide) (by decide)).2 (.inl (by decide))

/-- The context of the step is cancelled while the loop sends the only output. -/
def dropped : List (ParallelAct Nat Nat) :=
  [.feed 7, .claim, .receive, .addJob, .closeInput, .claim, .receiveClosed, .jobReturns 0 8,
    .jobReports 0, .collect, .report, .closeResults, .cancelStep ⟨.var .canceled, .var .canceled⟩,
    .sendFails, .collect, .finish]

theorem output_dropped_silently :
    Trace.Along (next ⟨2, true, true⟩) (Enabled ⟨2, true, true⟩) {} dropped ∧
      let s := dropped.foldl (next ⟨2, true, true⟩) {}
      s.collector = .returned ∧ s.received = [(0, 7)] ∧ s.delivered = [] ∧ s.err = none ∧
        s.remaining = [] ∧ ¬s.Accounts ⟨2, true, true⟩ 0 7 := by
  have hdelivered : (dropped.foldl (next ⟨2, true, true⟩) {}).delivered = [] := by decide
  have hdiscarded : (dropped.foldl (next ⟨2, true, true⟩) {}).discarded = [] := by decide
  have herr : (dropped.foldl (next ⟨2, true, true⟩) {}).err = none := by decide
  refine ⟨by decide, by decide, by decide, hdelivered, herr, by decide, ?_⟩
  simp [Accounts, hdelivered, hdiscarded, herr]

end ParallelRun

end Work
