import OpenPCC.Work.Proof.ParallelStep

/-!
# Progress of a parallel step

Every slot is held for something that is in flight (`Slots.held`), so the goroutine waits for a slot
only while there is a result to come. Once the step has failed, slots are not given back any more;
but then the context is cancelled or the goroutine does not ask for slots (`Stopping`).
Conversely everything in flight has a slot as long as the goroutine receives (`Slots.full`), which
bounds the number of inputs that are worked on (`Inputs.card_onTheWay_le`). Every operation lowers
`weight`, to which an input adds seven.
-/

namespace Work

open Go

variable {α β : Type}

/-- The step does not wait for anything else: neither for the outside, nor for `Func`, the pool or
the receiver of an output. -/
def ParallelAct.isInner : ParallelAct α β → Bool
  | .feed _ | .closeInput | .cancelStep _ => false
  | .addJob | .addJobFails _ | .jobReturns _ _ | .jobFails _ _ | .send => false
  | _ => true

/-- From outside. -/
def ParallelAct.isOuter : ParallelAct α β → Bool
  | .feed _ | .closeInput | .cancelStep _ => true
  | _ => false

def ParallelAct.isFeed : ParallelAct α β → Bool
  | .feed _ => true
  | _ => false

/-- The goroutine may still receive an input. -/
def Producer.Active : Producer α β → Prop
  | .claiming _ | .receiving _ | .adding _ _ => True
  | _ => False

/-- It has a slot that no job has yet. -/
def Producer.claimed : Producer α β → Nat
  | .receiving _ | .adding _ _ | .reporting _ => 1
  | _ => 0

def Producer.weight : Producer α β → Nat
  | .claiming _ => 6
  | .receiving _ => 5
  | .adding _ _ => 11
  | .reporting _ => 4
  | .waiting => 1
  | .returned => 0

def Collector.sending? : Collector β → Nat
  | .sending _ _ => 1
  | _ => 0

def Collector.weight : Collector β → Nat
  | .receiving => 1
  | .sending _ _ => 2
  | .returned => 0

namespace ParallelRun

/-- The step waits for an input, for the pool to take a job, or for an output to be received. -/
def Awaits (s : ParallelRun α β) : Prop :=
  ((∃ i, s.producer = .receiving i) ∧ s.input = [] ∧ s.inputClosed = false ∧ s.ctx = none) ∨
    (∃ i x, s.producer = .adding i x) ∨ (∃ i out, s.collector = .sending i out) ∧ s.stepCtx = none

/-- The step has returned, goes on by itself, runs `Func`, or waits. -/
def Progresses (cfg : ParallelConfig) (s : ParallelRun α β) : Prop :=
  s.collector = .returned ∨ (∃ a, a.isInner = true ∧ s.Enabled cfg a) ∨ s.jobs ≠ [] ∨ s.Awaits

/-- What is left to do. -/
def weight (s : ParallelRun α β) : Nat :=
  7 * s.input.length + s.producer.weight + 4 * s.jobs.length + 3 * s.reports.length +
    2 * s.results.length + s.collector.weight

/-- What a slot can be held for. -/
def inFlight (s : ParallelRun α β) : Nat :=
  s.producer.claimed + s.jobs.length + s.reports.length + s.results.length + s.collector.sending?

variable {cfg : ParallelConfig} {s s' : ParallelRun α β} {a : ParallelAct α β}

/-! ## Slots -/

structure Slots (cfg : ParallelConfig) (s : ParallelRun α β) : Prop where
  bound : s.slots ≤ (max 1 cfg.maxParallel).toNat
  held : s.err = none → s.slots ≤ s.inFlight
  full : s.producer.Active → s.inFlight ≤ s.slots

/-- A step that has failed asks for a slot only if it need not get one. -/
def Stopping (s : ParallelRun α β) : Prop := s.Failing → s.producer.Active → s.ctx ≠ none

theorem remain_eq (cfg : ParallelConfig) (s : ParallelRun α β) (r : JobResult α β)
    (err : Option Err) : ∃ failed remaining, s.remain cfg r err = { s with failed, remaining } := by
  unfold remain
  split
  · exact ⟨s.failed, s.remaining, rfl⟩
  · exact ⟨_, _, rfl⟩

/-- What the loop does with a result leaves the rest of the step alone. -/
theorem handle_frame (cfg : ParallelConfig) (s : ParallelRun α β) (r : JobResult α β) :
    (s.handle cfg r).producer = s.producer ∧ (s.handle cfg r).jobs = s.jobs ∧
      (s.handle cfg r).reports = s.reports ∧ (s.handle cfg r).results = s.results ∧
      (s.handle cfg r).ctx = s.ctx ∧ (s.handle cfg r).input = s.input := by
  obtain ⟨failed, remaining, hremain⟩ :=
    remain_eq cfg s r (r.err.map (.errorf "job %d failed: %w" [.int r.jobID]))
  simp only [handle, hremain]
  split
  · exact ⟨rfl, rfl, rfl, rfl, rfl, rfl⟩
  · split <;> exact ⟨rfl, rfl, rfl, rfl, rfl, rfl⟩
  · exact ⟨rfl, rfl, rfl, rfl, rfl, rfl⟩

/-- The loop gives a slot back, or starts to send an output and keeps it. -/
theorem slots_handle (cfg : ParallelConfig) (r : JobResult α β) (hc : s.collector = .receiving) :
    ((s.handle cfg r).slots = s.slots - 1 ∧ (s.handle cfg r).collector = .receiving) ∨
      (s.handle cfg r).slots = s.slots ∧ ∃ i out, (s.handle cfg r).collector = .sending i out := by
  obtain ⟨failed, remaining, hremain⟩ :=
    remain_eq cfg s r (r.err.map (.errorf "job %d failed: %w" [.int r.jobID]))
  simp only [handle, hremain]
  split
  · exact .inl ⟨rfl, hc⟩
  · split
    · exact .inr ⟨rfl, _, _, rfl⟩
    · exact .inl ⟨rfl, hc⟩
  · exact .inl ⟨rfl, hc⟩

theorem err_of_handle {r : JobResult α β} (h : (s.handle cfg r).err = none) : s.err = none := by
  obtain ⟨failed, remaining, hremain⟩ :=
    remain_eq cfg s r (r.err.map (.errorf "job %d failed: %w" [.int r.jobID]))
  simp only [handle, hremain] at h
  split at h
  · next e _ =>
    obtain ⟨e', he'⟩ := join_some_right s.err e
    have hnone := he'.symm.trans h
    cases hnone
  · split at h <;> exact h
  · exact h

/-! ## What the steps keep -/

theorem lt_of_claim (h : s.step cfg .claim = some s') :
    s.slots < (max 1 cfg.maxParallel).toNat := by
  have hmoves := Moves.of_step h
  cases hmoves with
  | claim i hp =>
    simp only [step, producerStep, hp] at h
    split at h
    · omega
    · cases h

theorem input_of_receive (h : s.step cfg .receive = some s') :
    ∃ i x input, s.producer = .receiving i ∧ s.input = x :: input ∧
      s' = { s with input, producer := .adding i x, received := s.received ++ [(i, x)] } := by
  have hmoves := Moves.of_step h
  cases hmoves with
  | receive i x input hp =>
    simp only [step, producerStep, hp] at h
    split at h
    · cases h
    · next hinput =>
      cases h
      exact ⟨i, _, _, hp, hinput, rfl⟩

theorem ctx_of_jobFails {k : Nat} {err : Err} (h : s.step cfg (.jobFails k err) = some s') :
    s'.ctx ≠ none := by
  simp only [step, jobStep] at h
  obtain ⟨⟨i, x⟩, -, h⟩ := Option.bind_eq_some_iff.1 h
  cases h
  cases s.ctx <;> nofun

theorem sent_frame (s : ParallelRun α β) (sendErr : Option Err) :
    (s.sent sendErr).producer = s.producer ∧ (s.sent sendErr).jobs = s.jobs ∧
      (s.sent sendErr).reports = s.reports ∧ (s.sent sendErr).results = s.results ∧
      (s.sent sendErr).ctx = s.ctx ∧ (s.sent sendErr).input = s.input ∧
      (s.sent sendErr).collector = .receiving := by
  obtain ⟨err, slots, hs, -⟩ := sent_eq s sendErr
  rw [hs]
  exact ⟨rfl, rfl, rfl, rfl, rfl, rfl, rfl⟩

/-- Once the step has failed, a slot is not given back after a send. -/
theorem slots_sent (s : ParallelRun α β) (sendErr : Option Err) :
    (s.err = none → (s.sent sendErr).slots = s.slots - 1) ∧
      (s.err ≠ none → (s.sent sendErr).slots = s.slots ∧ (s.sent sendErr).err ≠ none) := by
  cases he : s.err with
  | none =>
    refine ⟨fun _ => ?_, fun h => absurd rfl h⟩
    simp only [sent, he, freeSlot]
  | some e =>
    refine ⟨fun h => absurd h (Option.some_ne_none e), fun _ => ?_⟩
    simp only [sent, he, join]
    exact ⟨trivial, Option.some_ne_none _⟩

theorem Slots.handle {r : JobResult α β} {results : List (JobResult α β)} (h : Slots cfg s)
    (hc : s.collector = .receiving) (hr : s.results = r :: results) :
    Slots cfg ({ s with results }.handle cfg r) := by
  obtain ⟨hproducer, hjobs, hreports, hresults, -⟩ := handle_frame cfg { s with results } r
  have hslots := slots_handle (s := { s with results }) cfg r hc
  have herr : ({ s with results }.handle cfg r).err = none → s.err = none :=
    fun h => err_of_handle (s := { s with results }) h
  generalize ({ s with results }.handle cfg r) = s' at *
  have hin : s'.inFlight + 1 = s.inFlight + s'.collector.sending? := by
    simp only [inFlight, hproducer, hjobs, hreports, hresults, hr, hc, Collector.sending?,
      List.length_cons]
    omega
  have hmove : s'.slots = s.slots - 1 ∧ s'.collector.sending? = 0 ∨
      s'.slots = s.slots ∧ s'.collector.sending? = 1 := by
    obtain ⟨hs, hcollector⟩ | ⟨hs, i, out, hcollector⟩ := hslots
    · exact .inl ⟨hs, by rw [hcollector]; rfl⟩
    · exact .inr ⟨hs, by rw [hcollector]; rfl⟩
  have hle : s'.slots ≤ s.slots := by omega
  refine ⟨hle.trans h.bound, fun he => ?_, fun ha => ?_⟩
  · have := h.held (herr he)
    omega
  · rw [hproducer] at ha
    have := h.full ha
    omega

theorem Slots.sent (h : Slots cfg s) (sendErr : Option Err) (hc : s.collector.sending? = 1) :
    Slots cfg (s.sent sendErr) := by
  obtain ⟨hproducer, hjobs, hreports, hresults, -, -, hcollector⟩ := sent_frame s sendErr
  obtain ⟨hnone, hsome⟩ := slots_sent s sendErr
  generalize s.sent sendErr = s' at *
  have hin : s'.inFlight + 1 = s.inFlight := by
    have hsending : s'.collector.sending? = 0 := by rw [hcollector]; rfl
    rw [inFlight, inFlight, hproducer, hjobs, hreports, hresults, hsending, hc]
  have hbound := h.bound
  by_cases he : s.err = none
  · have hslots := hnone he
    refine ⟨by omega, fun _ => ?_, fun ha => ?_⟩
    · have := h.held he
      omega
    · rw [hproducer] at ha
      have := h.full ha
      omega
  · obtain ⟨hslots, he'⟩ := hsome he
    refine ⟨by omega, fun h => absurd h he', fun ha => ?_⟩
    rw [hproducer] at ha
    have := h.full ha
    omega

/-- What is in flight goes from one place to another. -/
theorem Slots.of_inFlight (h : Slots cfg s) (hslots : s'.slots = s.slots) (herr : s'.err = s.err)
    (hin : s'.inFlight = s.inFlight) (hactive : s'.producer.Active → s.producer.Active) :
    Slots cfg s' := by
  refine ⟨?_, ?_, fun ha => ?_⟩
  · rw [hslots]
    exact h.bound
  · rw [hslots, herr, hin]
    exact h.held
  · rw [hslots, hin]
    exact h.full (hactive ha)

theorem Slots.step (h : Slots cfg s) (hstep : s.step cfg a = some s') : Slots cfg s' := by
  have hmoves := Moves.of_step hstep
  have hheld := h.held
  have hfull := h.full
  cases hmoves with
  | feed | closeInput | cancelStep => exact { h with }
  | claim i hp =>
    have hlt := lt_of_claim hstep
    simp only [inFlight, hp, Producer.claimed, Producer.Active] at hheld hfull
    refine ⟨hlt, fun he => ?_, fun _ => ?_⟩
    · have := hheld he
      simp only [inFlight, Producer.claimed]
      omega
    · have := hfull trivial
      simp only [inFlight, Producer.claimed]
      omega
  | claimCancelled i d hp =>
    simp only [inFlight, hp, Producer.claimed] at hheld
    refine ⟨h.bound, fun he => ?_, False.elim⟩
    have := hheld he
    simp only [inFlight, Producer.claimed]
    omega
  | receive i x input hp =>
    refine h.of_inFlight rfl rfl ?_ fun _ => by rw [hp]; trivial
    simp only [inFlight, hp, Producer.claimed]
  | addJob i x hp =>
    refine h.of_inFlight rfl rfl ?_ fun _ => by rw [hp]; trivial
    simp only [inFlight, hp, Producer.claimed, List.length_append, List.length_singleton]
    omega
  | receiveClosed i hp | receiveCancelled i d hp | addJobFails i x err err' hp | closeResults hp =>
    refine h.of_inFlight rfl rfl ?_ False.elim
    simp only [inFlight, hp, Producer.claimed]
  | report r hp =>
    refine h.of_inFlight rfl rfl ?_ False.elim
    simp only [inFlight, hp, Producer.claimed, List.length_append, List.length_singleton]
    omega
  | jobReturns k i x out hk | jobFails k i x ctx err err' hk | jobReports k r hk =>
    have hlen := List.length_eraseIdx_add_one (List.getElem?_eq_some_iff.1 hk).1
    refine h.of_inFlight rfl rfl ?_ id
    simp only [inFlight, List.length_append, List.length_singleton]
    omega
  | collect r results hc hr => exact h.handle hc hr
  | send i out hc | sendFails i out err hc =>
    apply Slots.sent
    · exact { h with }
    · show s.collector.sending? = 1
      rw [hc]
      rfl
  | finish hc =>
    refine h.of_inFlight rfl rfl ?_ id
    simp only [inFlight, hc, Collector.sending?]

theorem Stopping.step (h : Stopping s) (hinputs : Inputs cfg s)
    (hstep : s.step cfg a = some s') : Stopping s' := by
  intro hfailing hactive
  have hmoves := Moves.of_step hstep
  rw [hmoves.failing_iff hinputs] at hfailing
  cases hmoves with
  | jobFails => exact ctx_of_jobFails hstep
  | claimCancelled | receiveClosed | receiveCancelled | addJobFails | report | closeResults =>
    exact hactive.elim
  | cancelStep d => cases s.ctx <;> nofun
  | feed | closeInput | jobReturns | jobReports | finish =>
    exact h (hfailing.resolve_right id) hactive
  | claim i hp | receive i x input hp | addJob i x hp =>
    exact h (hfailing.resolve_right id) (by rw [hp]; trivial)
  | collect r results hc hr =>
    obtain ⟨hproducer, -, -, -, hctx, -⟩ := handle_frame cfg { s with results } r
    rw [hproducer] at hactive
    rw [hctx]
    exact h (hfailing.resolve_right id) hactive
  | send i out hc =>
    obtain ⟨hproducer, -, -, -, hctx, -⟩ :=
      sent_frame { s with delivered := s.delivered ++ [(i, out)] } none
    rw [hproducer] at hactive
    rw [hctx]
    exact h (hfailing.resolve_right id) hactive
  | sendFails i out err hc =>
    obtain ⟨hproducer, -, -, -, hctx, -⟩ :=
      sent_frame { s with unsent := s.unsent ++ [(i, out)] } (some err)
    rw [hproducer] at hactive
    rw [hctx]
    exact h (hfailing.resolve_right id) hactive

/-! ## Inputs that are worked on -/

theorem JobResult.WellFormed.card_ids {received : List (Nat × α)} {r : JobResult α β}
    (h : r.WellFormed received) : r.ids.card ≤ 1 := by
  cases h with
  | empty => exact Nat.zero_le 1
  | failed | output => exact Nat.le_refl 1

theorem card_sum_ids_le {received : List (Nat × α)} :
    ∀ {l : List (JobResult α β)}, (∀ r ∈ l, r.WellFormed received) →
      (l.map JobResult.ids).sum.card ≤ l.length
  | [], _ => Nat.le_refl 0
  | r :: l, h => by
    obtain ⟨hr, hl⟩ := List.forall_mem_cons.1 h
    have := JobResult.WellFormed.card_ids hr
    have := card_sum_ids_le hl
    rw [List.map_cons, List.sum_cons, Multiset.card_add, List.length_cons]
    omega

theorem Inputs.card_onTheWay_le (h : Inputs cfg s) : s.onTheWay.card ≤ s.inFlight := by
  have hproducer : s.producer.ids.card ≤ s.producer.claimed := by
    have hreporting := h.reporting
    cases hp : s.producer with
    | reporting r =>
      rw [hp] at hreporting
      exact JobResult.WellFormed.card_ids (hreporting r List.mem_cons_self)
    | _ => simp [Producer.ids, Producer.claimed]
  have hcollector : s.collector.ids.card = s.collector.sending? := by
    cases s.collector <;> rfl
  have hreports := card_sum_ids_le h.reports
  have hresults := card_sum_ids_le h.results
  simp only [onTheWay, inFlight, Multiset.card_add, Multiset.coe_card, List.length_map, hcollector]
  omega

theorem Moves.card_settled_le (hinputs : Inputs cfg s) (hmoves : Moves cfg s a s') :
    s.settled.card ≤ s'.settled.card := by
  cases hmoves with
  | collect r results hc hr =>
    have hwf := hinputs.results r (by rw [hr]; exact List.mem_cons_self)
    have hhandles : Handles cfg { s with results } r ({ s with results }.handle cfg r) :=
      .of_wellFormed hwf
    generalize { s with results }.handle cfg r = s' at hhandles
    cases hhandles <;>
    · simp only [settled, Multiset.card_add, Multiset.coe_card, List.length_map, List.length_append]
      omega
  | send i out hc =>
    obtain ⟨err, slots, hs, -⟩ := sent_eq { s with delivered := s.delivered ++ [(i, out)] } none
    rw [hs]
    simp only [settled, Multiset.card_add, Multiset.coe_card, List.length_map, List.length_append]
    omega
  | sendFails i out err hc =>
    obtain ⟨err, slots, hs, -⟩ := sent_eq { s with unsent := s.unsent ++ [(i, out)] } (some err)
    rw [hs]
    simp only [settled, Multiset.card_add, Multiset.coe_card, List.length_map, List.length_append]
    omega
  | _ => exact Nat.le_refl _

/-- Everything that is kept. -/
structure Live (cfg : ParallelConfig) (s : ParallelRun α β) : Prop extends Inv cfg s where
  slots : Slots cfg s
  stopping : Stopping s
  card_onTheWay_le : s.onTheWay.card ≤ (max 1 cfg.maxParallel).toNat

theorem Live.init : Live cfg ({} : ParallelRun α β) where
  toInv := .init
  slots := ⟨Nat.zero_le _, fun _ => Nat.zero_le _, fun _ => Nat.le_refl _⟩
  stopping := by simp [Stopping, Failing, Producer.result]
  card_onTheWay_le := Nat.zero_le _

theorem Live.step (h : Live cfg s) (hstep : s.step cfg a = some s') : Live cfg s' := by
  have hmoves := Moves.of_step hstep
  have hinputs := h.inputs.moves hmoves
  have hslots := h.slots.step hstep
  refine
    { inputs := hinputs
      ids := h.ids.moves h.inputs hmoves
      closed := h.closed.moves h.inputs hmoves
      slots := hslots
      stopping := h.stopping.step h.inputs hstep
      card_onTheWay_le := ?_ }
  by_cases ha : a = .receive
  · -- An input is received while the goroutine has a slot for it.
    subst ha
    have hactive : s'.producer.Active := by
      cases hmoves with
      | receive => trivial
    exact (hinputs.card_onTheWay_le.trans (hslots.full hactive)).trans hslots.bound
  · have hids := congrArg Multiset.card (hmoves.keeps h.inputs ha).ids
    have hsettled := hmoves.card_settled_le h.inputs
    have hcard := h.card_onTheWay_le
    rw [Multiset.card_add, Multiset.card_add] at hids
    omega

/-! ## Progress -/

theorem waits_or_enabled (cfg : ParallelConfig) (hc : s.collector ≠ .returned) :
    (s.collector = .receiving ∧ s.results = []) ∨ s.Awaits ∨
      ∃ a, a.isInner = true ∧ s.Enabled cfg a := by
  cases hcollector : s.collector with
  | receiving =>
    cases hr : s.results with
    | nil => exact .inl ⟨rfl, rfl⟩
    | cons r results =>
      refine .inr (.inr ⟨.collect, rfl, ?_⟩)
      simp [Enabled, step, collectorStep, hcollector, hr]
  | sending i out =>
    cases hctx : s.stepCtx with
    | none => exact .inr (.inl (.inr (.inr ⟨⟨i, out, hcollector⟩, hctx⟩)))
    | some d =>
      refine .inr (.inr ⟨.sendFails, rfl, ?_⟩)
      simp [Enabled, step, collectorStep, hcollector, hctx]
  | returned => exact absurd hcollector hc

/-- The goroutine gets a slot when nothing is in flight. -/
theorem Live.slots_lt (h : Live cfg s) {i : Nat} (hp : s.producer = .claiming i)
    (hctx : s.ctx = none) (hin : s.inFlight = 0) : (s.slots : Int) < max 1 cfg.maxParallel := by
  have herr : s.err = none := by
    by_contra herr
    exact h.stopping (.inl herr) (by rw [hp]; trivial) hctx
  have := h.slots.held herr
  omega

theorem Live.progresses (h : Live cfg s) : s.Progresses cfg := by
  by_cases hc : s.collector = .returned
  · exact .inl hc
  obtain ⟨hcollector, hresults⟩ | hawaits | henabled := waits_or_enabled cfg hc
  rotate_left
  · exact .inr (.inr (.inr hawaits))
  · exact .inr (.inl henabled)
  have hcan : s.CanReport cfg := .inr ⟨by rw [hresults]; rfl, by rw [hcollector]⟩
  by_cases hjobs : s.jobs = []
  swap
  · exact .inr (.inr (.inl hjobs))
  by_cases hreports : s.reports = []
  swap
  · obtain ⟨r, reports, hr⟩ := List.exists_cons_of_ne_nil hreports
    refine .inr (.inl ⟨.jobReports 0, rfl, ?_⟩)
    simp [Enabled, ParallelRun.step, jobStep, hr, hcan]
  -- Only the goroutine is left.
  cases hp : s.producer with
  | claiming i =>
    cases hctx : s.ctx with
    | none =>
      have hlt := h.slots_lt hp hctx
        (by simp [inFlight, hp, hjobs, hreports, hresults, hcollector, Producer.claimed,
          Collector.sending?])
      refine .inr (.inl ⟨.claim, rfl, ?_⟩)
      simp only [Enabled, ParallelRun.step, producerStep, hp, if_pos hlt, Option.isSome_some]
    | some d =>
      refine .inr (.inl ⟨.claimCancelled, rfl, ?_⟩)
      simp [Enabled, ParallelRun.step, producerStep, hp, hctx]
  | receiving i =>
    cases hinput : s.input with
    | cons x input =>
      refine .inr (.inl ⟨.receive, rfl, ?_⟩)
      simp [Enabled, ParallelRun.step, producerStep, hp, hinput]
    | nil =>
      cases hclosed : s.inputClosed with
      | true =>
        refine .inr (.inl ⟨.receiveClosed, rfl, ?_⟩)
        simp [Enabled, ParallelRun.step, producerStep, hp, hinput, hclosed]
      | false =>
        cases hctx : s.ctx with
        | none => exact .inr (.inr (.inr (.inl ⟨⟨i, hp⟩, hinput, hclosed, hctx⟩)))
        | some d =>
          refine .inr (.inl ⟨.receiveCancelled, rfl, ?_⟩)
          simp [Enabled, ParallelRun.step, producerStep, hp, hctx]
  | adding i x => exact .inr (.inr (.inr (.inr (.inl ⟨i, x, hp⟩))))
  | reporting r =>
    refine .inr (.inl ⟨.report, rfl, ?_⟩)
    simp [Enabled, ParallelRun.step, producerStep, hp, hcan]
  | waiting =>
    refine .inr (.inl ⟨.closeResults, rfl, ?_⟩)
    simp [Enabled, ParallelRun.step, producerStep, hp, hjobs, hreports]
  | returned =>
    refine .inr (.inl ⟨.finish, rfl, ?_⟩)
    simp [Enabled, ParallelRun.step, collectorStep, hp, hcollector, hresults]

/-! ## Termination -/

theorem weight_handle {r : JobResult α β} {results : List (JobResult α β)}
    (hc : s.collector = .receiving) (hr : s.results = r :: results) :
    ({ s with results }.handle cfg r).weight < s.weight := by
  obtain ⟨hproducer, hjobs, hreports, hresults, -, hinput⟩ :=
    handle_frame cfg { s with results } r
  have hcollector : ({ s with results }.handle cfg r).collector.weight ≤ 2 := by
    cases ({ s with results }.handle cfg r).collector <;> simp [Collector.weight]
  have hreceiving : s.collector.weight = 1 := by rw [hc]; rfl
  simp only [weight, hproducer, hjobs, hreports, hresults, hinput, hr, hreceiving,
    List.length_cons]
  omega

theorem weight_sent {sendErr : Option Err} (hc : s.collector.weight = 2) :
    (s.sent sendErr).weight < s.weight := by
  obtain ⟨hproducer, hjobs, hreports, hresults, -, hinput, hcollector⟩ := sent_frame s sendErr
  have hreceiving : (s.sent sendErr).collector.weight = 1 := by rw [hcollector]; rfl
  simp only [weight, hproducer, hjobs, hreports, hresults, hinput, hreceiving, hc]
  omega

theorem weight_lt (houter : a.isOuter = false) (hstep : s.step cfg a = some s') :
    s'.weight < s.weight := by
  have hmoves := Moves.of_step hstep
  cases hmoves with
  | feed | closeInput | cancelStep => cases houter
  | claim i hp | claimCancelled i d hp | receiveClosed i hp | receiveCancelled i d hp
  | addJobFails i x err err' hp | closeResults hp =>
    simp only [weight, hp, Producer.weight]
    omega
  | receive i x input hp =>
    obtain ⟨_, _, _, -, hinput, hs⟩ := input_of_receive hstep
    cases hs
    simp only [weight, hp, hinput, Producer.weight, List.length_cons]
    omega
  | addJob i x hp | report r hp =>
    simp only [weight, hp, Producer.weight, List.length_append, List.length_singleton]
    omega
  | jobReturns k i x out hk | jobFails k i x ctx err err' hk | jobReports k r hk =>
    have hlen := List.length_eraseIdx_add_one (List.getElem?_eq_some_iff.1 hk).1
    simp only [weight, List.length_append, List.length_singleton]
    omega
  | collect r results hc hr => exact weight_handle hc hr
  | send i out hc =>
    exact weight_sent (s := { s with delivered := s.delivered ++ [(i, out)] })
      (show s.collector.weight = 2 by rw [hc]; rfl)
  | sendFails i out err hc =>
    exact weight_sent (s := { s with unsent := s.unsent ++ [(i, out)] })
      (show s.collector.weight = 2 by rw [hc]; rfl)
  | finish hc =>
    simp only [weight, hc, Collector.weight]
    omega

/-- An input that arrives is seven operations. -/
theorem weight_step (hstep : s.step cfg a = some s') :
    s'.weight + (!a.isOuter).toNat ≤ s.weight + 7 * a.isFeed.toNat := by
  cases houter : a.isOuter with
  | false =>
    have hlt := weight_lt houter hstep
    show s'.weight + 1 ≤ _
    omega
  | true =>
    have hmoves := Moves.of_step hstep
    cases hmoves with
    | feed x =>
      simp only [weight, ParallelAct.isFeed, List.length_append, List.length_singleton,
        Bool.not_true, Bool.toNat_false, Bool.toNat_true]
      omega
    | closeInput | cancelStep => exact Nat.le_refl _
    | _ => cases houter

theorem next_of_enabled (h : s.Enabled cfg a) : s.step cfg a = some (s.next cfg a) := by
  obtain ⟨s', hs'⟩ := Option.isSome_iff_exists.1 h
  rw [next, hs', Option.getD_some]

/-- The operations of a run are bounded by the inputs that arrive. -/
theorem countP_add_weight_le :
    ∀ {acts : List (ParallelAct α β)} {s : ParallelRun α β},
      Trace.Along (next cfg) (Enabled cfg) s acts →
        acts.countP (!·.isOuter) + (acts.foldl (next cfg) s).weight ≤
          s.weight + 7 * acts.countP (·.isFeed)
  | [], s, _ => by simp
  | a :: acts, s, h => by
    have hstep := weight_step (next_of_enabled h.1)
    have ih := countP_add_weight_le h.2
    rw [List.foldl_cons, List.countP_cons, List.countP_cons]
    cases hout : a.isOuter <;> cases hfeed : a.isFeed <;>
      simp only [hout, hfeed, Bool.not_true, Bool.not_false, Bool.toNat_true, Bool.toNat_false,
        Bool.false_eq_true, if_true, if_false] at hstep ⊢ <;> omega

end ParallelRun

open ParallelRun

/-- In every run of a parallel step, at most `MaxParallel` inputs, or one, are received and not yet
dealt with. Unless the step has returned it goes on by itself, runs `Func`, or waits for an input,
for the pool to take a job or for an output to be received; and it takes no more than seven
operations for each input that arrives, and seven at the end. -/
theorem parallelStep_live (cfg : ParallelConfig) {acts : List (ParallelAct α β)}
    (hrun : Trace.Along (next cfg) (Enabled cfg) {} acts) :
    Trace.Always (next cfg)
      (fun s => s.onTheWay.card ≤ (max 1 cfg.maxParallel).toNat ∧ s.Progresses cfg) {} acts ∧
    acts.countP (!·.isOuter) ≤ 7 * acts.countP (·.isFeed) + 7 := by
  have hlive : Trace.Always (next cfg) (Live cfg) ({} : ParallelRun α β) acts :=
    Trace.always_of_step (fun _ _ h he => h.step (next_of_enabled he)) .init hrun
  refine ⟨hlive.mono fun s h => ⟨h.card_onTheWay_le, h.progresses⟩, ?_⟩
  have hcount := countP_add_weight_le hrun
  have hinit : ({} : ParallelRun α β).weight = 7 := rfl
  omega

theorem parallelStep_live_sentAll :
    (sentAll.foldl (next ⟨2, true, true⟩) {}).collector = .returned ∧
      sentAll.countP (!·.isOuter) ≤ 7 * sentAll.countP (·.isFeed) + 7 :=
  ⟨by decide, (parallelStep_live ⟨2, true, true⟩ (by decide)).2⟩

end Work
