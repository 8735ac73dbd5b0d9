import Mathlib.Data.Option.Basic
import Mathlib.Tactic.Abel
import OpenPCC.Delay.Pool
import OpenPCC.Lib.Bag
import OpenPCC.Lib.Trace

/-!
# The delay pool loses items only when the processor gives up

Every step of the pool keeps account of the values that were accepted, except one: when the
processor has taken an item out of the heap and the pool is closed before someone receives it, it
may return without the item (`ProcessorAct.giveUp`).
-/

namespace Delay

open Go

variable {α : Type}

namespace Pool

variable {p p' : Pool α}

/-! ## Taking items out of the heap and handing them over -/

theorem popFromHeap_eq_some {i : Nat} {item : PoolItem α}
    (h : p.popFromHeap i = some (item, p')) :
    p' = { p with heap := p.heap.eraseIdx i } ∧
      (p.heap.map PoolItem.val : Multiset α) =
        {item.val} + ((p.heap.eraseIdx i).map PoolItem.val : List α) := by
  simp only [popFromHeap, Option.bind_eq_bind, Option.bind_eq_some_iff, Option.pure_def,
    Option.guard_eq_some', Option.some.injEq, Prod.mk.injEq] at h
  obtain ⟨item, hitem, -, -, rfl, rfl⟩ := h
  exact ⟨rfl, Bag.coe_map_eraseIdx hitem _⟩

theorem deliver_eq_some {item : PoolItem α} {rcv : Receiver} (h : p.deliver item rcv = some p') :
    ∃ received collector, p' = { p with received, collector } ∧
      collector.isNone = p.collector.isNone ∧
      (received.map Delayed.v : Multiset α) + (collector.getD [] : List α) =
        {item.val} + (p.received.map Delayed.v : List α) + (p.collector.getD [] : List α) := by
  cases rcv with
  | consumer =>
    cases h
    refine ⟨_, p.collector, rfl, rfl, ?_⟩
    rw [List.map_append, List.map_singleton, Bag.coe_append_singleton]
  | collector =>
    obtain ⟨items, hitems, rfl⟩ := Option.map_eq_some_iff.1 h
    refine ⟨p.received, some (items ++ [item.val]), rfl, by rw [hitems]; rfl, ?_⟩
    rw [hitems, Option.getD_some, Option.getD_some, Bag.coe_append_singleton]
    abel

/-! ## The calls of `Add` -/

/-- What the calls of `Add` leave alone. -/
structure AddFrame (p p' : Pool α) : Prop where
  closed : p'.closed = p.closed
  outputClosed : p'.outputClosed = p.outputClosed
  processor : p'.processor = p.processor
  closer : p'.closer = p.closer
  collector : p'.collector = p.collector
  received : p'.received = p.received

theorem accepted_addReturns (i : Nat) (call : AddCall α) (err : Option Err) :
    (p.addReturns i call err).accepted =
      (if err = none then {call.item.val} else 0) + p.accepted := by
  cases err with
  | none =>
    rw [accepted, addReturns, List.filter_append, List.map_append]
    exact Bag.coe_append_singleton ..
  | some e =>
    rw [accepted, addReturns, List.filter_append, List.map_append]
    simp [accepted]

theorem frame_addReturns (i : Nat) (call : AddCall α) (err : Option Err) :
    AddFrame p (p.addReturns i call err) :=
  ⟨rfl, rfl, rfl, rfl, rfl, rfl⟩

theorem tryAdd_spec {i : Nat} {call : AddCall α} {isEarliest : Bool}
    (h : p.tryAdd i call isEarliest = some p') :
    AddFrame p p' ∧
      ((p'.heap = p.heap ∧ p'.accepted = p.accepted) ∨
        (p.closed = false ∧ p'.heap = p.heap ++ [call.item] ∧
          p'.accepted = {call.item.val} + p.accepted)) := by
  rw [tryAdd] at h
  split at h
  · cases h
    exact ⟨frame_addReturns .., .inl ⟨rfl, (accepted_addReturns ..).trans (zero_add _)⟩⟩
  · next hclosed =>
    split at h
    · cases h
      exact ⟨⟨rfl, rfl, rfl, rfl, rfl, rfl⟩, .inl ⟨rfl, rfl⟩⟩
    · simp only [Option.bind_eq_bind, Option.bind_eq_some_iff, Option.pure_def,
        Option.some.injEq] at h
      obtain ⟨-, -, rfl⟩ := h
      exact ⟨⟨rfl, rfl, rfl, rfl, rfl, rfl⟩,
        .inr ⟨by simpa using hclosed, rfl, accepted_addReturns ..⟩⟩

theorem addStep_spec {i : Nat} {call : AddCall α} {a : AddAct} (h : p.addStep i call a = some p') :
    AddFrame p p' ∧
      ((p'.heap = p.heap ∧ p'.accepted = p.accepted) ∨
        (p.closed = false ∧ p'.heap = p.heap ++ [call.item] ∧
          p'.accepted = {call.item.val} + p.accepted)) := by
  cases a with
  | tryAdd isEarliest =>
    rw [addStep] at h
    split at h
    · cases h
    · exact tryAdd_spec h
  | spaceAvailable =>
    rw [addStep] at h
    split at h
    · cases h
      exact ⟨⟨rfl, rfl, rfl, rfl, rfl, rfl⟩, .inl ⟨rfl, rfl⟩⟩
    · cases h
  | closed =>
    rw [addStep] at h
    split at h
    · cases h
      exact ⟨frame_addReturns .., .inl ⟨rfl, (accepted_addReturns ..).trans (zero_add _)⟩⟩
    · cases h
  | cancelled err =>
    rw [addStep] at h
    split at h
    · cases h
      exact ⟨frame_addReturns .., .inl ⟨rfl, (accepted_addReturns ..).trans (zero_add _)⟩⟩
    · cases h

/-! ## The processor -/

/-- What a step of the processor does: it keeps all values, unless it gives up with one in its
hand. -/
structure ProcessorSpec (p : Pool α) (a : ProcessorAct) (p' : Pool α) : Prop where
  running : p.processor ≠ .stopped
  closed : p'.closed = p.closed
  outputClosed : p'.outputClosed = p.outputClosed
  closer : p'.closer = p.closer
  collector : p'.collector.isNone = p.collector.isNone
  accepted : p'.accepted = p.accepted
  held : (a ≠ .giveUp ∧ p'.held = p.held) ∨ (a = .giveUp ∧ ∃ v, p.held = {v} + p'.held)

/-- A step that moves the processor and takes or leaves notifications. -/
theorem processor_quiet {a : ProcessorAct} (ha : a ≠ .giveUp) {here there : Processor α}
    (hhere : p.processor = here) (hrun : here ≠ .stopped) (hhand : there.hand = here.hand)
    {newItem space : Bool} :
    ProcessorSpec p a { p with
      processor := there, notifyNewItem := newItem, notifySpaceAvailable := space } where
  running := hhere ▸ hrun
  closed := rfl
  outputClosed := rfl
  closer := rfl
  collector := rfl
  accepted := rfl
  held := .inl ⟨ha, by simp only [held, hhere, hhand]⟩

theorem processorStep_spec {a : ProcessorAct} (h : p.processorStep a = some p') :
    ProcessorSpec p a p' := by
  unfold processorStep at h
  split at h
  case h_1 hproc =>
    cases h
    refine processor_quiet (by decide) hproc (by simp) ?_
    split <;> rfl
  case h_2 hproc | h_3 hproc =>
    split at h
    · cases h
      refine processor_quiet (by decide) hproc (by simp) ?_
      rfl
    · cases h
  case h_4 hproc | h_5 hproc =>
    split at h
    · cases h
      refine processor_quiet (by decide) hproc (by simp) ?_
      rfl
    · cases h
  case h_6 hproc =>
    cases h
    refine processor_quiet (by decide) hproc (by simp) ?_
    split <;> rfl
  case h_7 hproc =>
    split at h
    · cases h
      refine processor_quiet (by decide) hproc (by simp) ?_
      rfl
    · cases h
  case h_8 hproc =>
    cases h
    refine processor_quiet (by decide) hproc (by simp) ?_
    rfl
  case h_9 hproc =>
    simp only [Option.bind_eq_bind, Option.bind_eq_some_iff, Option.pure_def,
      Option.some.injEq] at h
    obtain ⟨⟨item, q⟩, hpop, -, -, rfl⟩ := h
    obtain ⟨rfl, hheap⟩ := popFromHeap_eq_some hpop
    refine ⟨by simp [hproc], rfl, rfl, rfl, rfl, rfl, .inl ⟨by simp, ?_⟩⟩
    simp only [held, hproc, Processor.hand, hheap]
    abel
  case h_10 hproc =>
    split at h
    · cases h
      refine processor_quiet (by decide) hproc (by simp) ?_
      rfl
    · cases h
  case h_11 hproc =>
    simp only [Option.bind_eq_bind, Option.bind_eq_some_iff, Option.pure_def,
      Option.some.injEq] at h
    obtain ⟨q, hdeliver, rfl⟩ := h
    obtain ⟨received, collector, rfl, hnone, hsum⟩ := deliver_eq_some hdeliver
    refine ⟨by simp [hproc], rfl, rfl, rfl, hnone, rfl, .inl ⟨by simp, ?_⟩⟩
    simp only [held, hproc, Processor.hand]
    grind
  case h_12 item hproc =>
    split at h
    · cases h
      refine ⟨by simp [hproc], rfl, rfl, rfl, rfl, rfl, .inr ⟨rfl, item.val, ?_⟩⟩
      simp only [held, hproc, Processor.hand]
      abel
    · cases h
  case h_13 => cases h

/-! ## Closing -/

end Pool

namespace Closer

/-- The processor has stopped. -/
def drains : Closer α → Bool
  | .none | .closing _ | .waiting _ => false
  | _ => true

/-- The heap is empty. -/
def isDrained : Closer α → Bool
  | .drained _ | .collecting | .returned _ => true
  | _ => false

/-- `output` is closed. -/
def closesOutput : Closer α → Bool
  | .collecting | .returned _ => true
  | _ => false

/-- `CloseImmediate` is under way. -/
def immediate : Closer α → Bool
  | .closing respectDelays | .waiting respectDelays | .draining respectDelays => !respectDelays
  | .sending respectDelays _ | .drained respectDelays => !respectDelays
  | .collecting => true
  | .none | .sleeping _ | .returned _ => false

theorem drains_of_closesOutput {c : Closer α} (h : c.closesOutput = true) : c.drains = true := by
  cases c <;> first | rfl | cases h

theorem drains_of_isDrained {c : Closer α} (h : c.isDrained = true) : c.drains = true := by
  cases c <;> first | rfl | cases h

end Closer

namespace Pool

variable {p p' : Pool α}

/-- What holds in every state of a pool. -/
structure Inv (p : Pool α) : Prop where
  closed : p.closed = false → p.closer = .none
  stopped : p.closer.drains = true → p.processor = .stopped
  heap : p.closer.isDrained = true → p.heap = []
  output : p.outputClosed = true → p.closer.closesOutput = true
  collector : p.closer.immediate = false → p.collector = none

theorem inv_newPool (capacity : Int) : (newPool capacity : Pool α).Inv where
  closed _ := rfl
  stopped h := by cases h
  heap _ := rfl
  output h := by cases h
  collector _ := rfl

/-- The steps of others, while the pool is being closed or before. -/
theorem Inv.of_frame (h : p.Inv) (hclosed : p'.closed = p.closed) (hcloser : p'.closer = p.closer)
    (hout : p'.outputClosed = p.outputClosed)
    (hcollector : p'.collector.isNone = p.collector.isNone)
    (hprocessor : p.closer.drains = true → p'.processor = .stopped)
    (hheap : p.closer.isDrained = true → p'.heap = []) : p'.Inv where
  closed := by
    rw [hclosed, hcloser]
    exact h.closed
  stopped := by rwa [hcloser]
  heap := by rwa [hcloser]
  output := by
    rw [hout, hcloser]
    exact h.output
  collector := by
    rw [hcloser]
    intro himmediate
    rwa [h.collector himmediate, Option.isNone_none, Option.isNone_iff_eq_none] at hcollector

theorem Inv.addStep (h : p.Inv) {i : Nat} {call : AddCall α} {a : AddAct}
    (hstep : p.addStep i call a = some p') : p'.Inv := by
  obtain ⟨hframe, hadd⟩ := addStep_spec hstep
  refine h.of_frame hframe.closed hframe.closer hframe.outputClosed (by rw [hframe.collector])
    (fun hd => by rw [hframe.processor, h.stopped hd]) fun hd => ?_
  obtain ⟨hheap, -⟩ | ⟨hclosed, -⟩ := hadd
  · rw [hheap]
    exact h.heap hd
  · rw [h.closed hclosed] at hd
    cases hd

theorem Inv.processorStep (h : p.Inv) {a : ProcessorAct} (hstep : p.processorStep a = some p') :
    p'.Inv := by
  have hspec := processorStep_spec hstep
  -- the processor runs, so the closer waits for it
  have hdrains : ¬ p.closer.drains = true := fun hd => hspec.running (h.stopped hd)
  exact h.of_frame hspec.closed hspec.closer hspec.outputClosed hspec.collector
    (fun hd => absurd hd hdrains) fun hd => absurd (Closer.drains_of_isDrained hd) hdrains

theorem Inv.firstClose (h : p.Inv) (respectDelays : Bool) : (p.firstClose respectDelays).Inv := by
  rw [Pool.firstClose]
  split
  · exact h
  · next hclosed =>
    have hnone := h.closed (Bool.eq_false_iff.2 hclosed)
    refine ⟨fun hc => ?_, fun hd => ?_, fun hd => ?_, fun ho => ?_, fun hi => ?_⟩
    · cases hc
    · cases hd
    · cases hd
    · have hout := h.output ho
      rw [hnone] at hout
      cases hout
    · cases respectDelays with
      | false => cases hi
      | true => rfl

/-- A step that moves the call that closes the pool, and no value. -/
theorem Inv.closer_quiet (h : p.Inv) {here : Closer α} (hhere : p.closer = here)
    (hne : here ≠ .none) (there : Closer α)
    (hstopped : there.drains = true → p.processor = .stopped)
    (hheap : there.isDrained = true → p.heap = []) (hout : there.closesOutput = here.closesOutput)
    (himmediate : there.immediate = here.immediate) (hhand : there.hand = here.hand)
    (hresult : there.result = here.result) {ctxDone : Bool} :
    Inv { p with closeCtxDone := ctxDone, closer := there } ∧
      accepted { p with closeCtxDone := ctxDone, closer := there } = p.accepted ∧
      held { p with closeCtxDone := ctxDone, closer := there } = p.held := by
  refine ⟨⟨fun hf => ?_, hstopped, hheap, ?_, ?_⟩, rfl, ?_⟩
  · exact absurd (hhere.symm.trans (h.closed hf)) hne
  · rw [hout, ← hhere]
    exact h.output
  · rw [himmediate, ← hhere]
    exact h.collector
  · simp only [held, hhere, hhand, hresult]

theorem Inv.closerStep (h : p.Inv) {a : CloserAct} (hstep : p.closerStep a = some p') :
    p'.Inv ∧ p'.accepted = p.accepted ∧ p'.held = p.held := by
  have hopen {c : Closer α} (hc : p.closer = c) (hne : c ≠ .none) (hfalse : p.closed = false) :
      False := hne (hc.symm.trans (h.closed hfalse))
  unfold Pool.closerStep at hstep
  split at hstep
  case h_1 hc =>
    cases hstep
    exact h.closer_quiet hc (by simp) (.waiting _) nofun nofun rfl rfl rfl rfl
  case h_2 hc =>
    split at hstep
    · next hproc =>
      cases hstep
      exact h.closer_quiet hc (by simp) (.draining _) (fun _ => hproc) nofun rfl rfl rfl rfl
    · cases hstep
  case h_3 hc =>
    simp only [Option.bind_eq_bind, Option.bind_eq_some_iff, Option.pure_def,
      Option.some.injEq] at hstep
    obtain ⟨⟨item, q⟩, hpop, -, -, rfl⟩ := hstep
    obtain ⟨rfl, hvals⟩ := popFromHeap_eq_some hpop
    obtain ⟨-, hstopped, -, hout, hcollector⟩ := h
    rw [hc] at hstopped hout hcollector
    refine ⟨⟨fun hf => (hopen hc (by simp) hf).elim, hstopped, nofun, hout, hcollector⟩, rfl, ?_⟩
    simp only [held, hc, hvals, Closer.hand, Closer.result]
    abel
  case h_4 hc =>
    simp only [Option.bind_eq_bind, Option.bind_eq_some_iff, Option.pure_def,
      Option.some.injEq] at hstep
    obtain ⟨nextTime, -, -, -, rfl⟩ := hstep
    have hstopped : p.processor = .stopped := h.stopped (by rw [hc]; rfl)
    exact h.closer_quiet hc (by simp) (.sleeping _) (fun _ => hstopped) nofun rfl rfl rfl rfl
  case h_5 hc =>
    split at hstep
    · cases hstep
      have hstopped : p.processor = .stopped := h.stopped (by rw [hc]; rfl)
      exact h.closer_quiet hc (by simp) (.draining _) (fun _ => hstopped) nofun rfl rfl rfl rfl
    · cases hstep
  case h_6 hc =>
    simp only [Option.bind_eq_bind, Option.bind_eq_some_iff, Option.pure_def,
      Option.some.injEq] at hstep
    obtain ⟨q, hdeliver, rfl⟩ := hstep
    obtain ⟨received, collector, rfl, hnone, hsum⟩ := deliver_eq_some hdeliver
    obtain ⟨-, hstopped, hheap, hout, hcollector⟩ := h
    rw [hc] at hstopped hheap hout hcollector
    refine ⟨⟨fun hf => (hopen hc (by simp) hf).elim, hstopped, hheap, hout, fun hi => ?_⟩, rfl, ?_⟩
    · rwa [hcollector hi, Option.isNone_none, Option.isNone_iff_eq_none] at hnone
    · simp only [held, hc, Closer.hand, Closer.result]
      grind
  case h_7 hc =>
    split at hstep
    · next hempty =>
      cases hstep
      have hstopped : p.processor = .stopped := h.stopped (by rw [hc]; rfl)
      exact h.closer_quiet hc (by simp) (.drained _) (fun _ => hstopped)
        (fun _ => List.isEmpty_iff.1 hempty) rfl rfl rfl rfl
    · cases hstep
  case h_8 respectDelays hc =>
    cases hstep
    obtain ⟨-, hstopped, hheap, -, hcollector⟩ := h
    rw [hc] at hstopped hheap hcollector
    cases respectDelays with
    | false =>
      refine ⟨⟨fun hf => (hopen hc (by simp) hf).elim, hstopped, hheap, fun _ => rfl, nofun⟩,
        rfl, ?_⟩
      simp [held, hc, Closer.hand, Closer.result]
    | true =>
      refine ⟨⟨fun hf => (hopen hc (by simp) hf).elim, hstopped, hheap, fun _ => rfl, hcollector⟩,
        rfl, ?_⟩
      simp [held, hc, Closer.hand, Closer.result]
  case h_9 hc =>
    obtain ⟨items, hitems, rfl⟩ := Option.map_eq_some_iff.1 hstep
    obtain ⟨-, hstopped, hheap, hout, -⟩ := h
    rw [hc] at hstopped hheap hout
    refine ⟨⟨fun hf => (hopen hc (by simp) hf).elim, hstopped, hheap, hout, fun _ => rfl⟩, rfl, ?_⟩
    simp [held, hc, hitems, Closer.hand, Closer.result]
  case h_10 => cases hstep

/-! ## Runs -/

theorem held_firstClose (h : p.Inv) (respectDelays : Bool) :
    (p.firstClose respectDelays).held = p.held := by
  rw [Pool.firstClose]
  split
  · rfl
  · next hclosed =>
    have hnone := h.closed (Bool.eq_false_iff.2 hclosed)
    have hcollector := h.collector (by rw [hnone]; rfl)
    cases respectDelays <;> simp [held, hnone, hcollector, Closer.hand, Closer.result]

theorem conserved_addStep (h : p.Conserved) {i : Nat} {call : AddCall α} {a : AddAct}
    (hstep : p.addStep i call a = some p') : p'.Conserved := by
  obtain ⟨hframe, hadd⟩ := addStep_spec hstep
  rw [Conserved] at h ⊢
  obtain ⟨hheap, hacc⟩ | ⟨-, hheap, hacc⟩ := hadd
  · rw [hacc, h]
    simp only [held, hheap, hframe.processor, hframe.closer, hframe.received, hframe.collector]
  · rw [hacc, h]
    simp only [held, hheap, hframe.processor, hframe.closer, hframe.received, hframe.collector,
      List.map_append, List.map_singleton, Bag.coe_append_singleton]
    abel

/-- A step keeps the invariant, and it keeps all values unless the processor gives up. -/
theorem Inv.step (h : p.Inv) {a : Act α} (hstep : p.step a = some p') :
    p'.Inv ∧ (p.Conserved → (p'.Conserved ↔ a ≠ .processorStep .giveUp)) := by
  cases a with
  | tick d =>
    cases hstep
    exact ⟨⟨h.closed, h.stopped, h.heap, h.output, h.collector⟩,
      fun hc => iff_of_true hc (by simp)⟩
  | add v delay =>
    cases hstep
    exact ⟨⟨h.closed, h.stopped, h.heap, h.output, h.collector⟩,
      fun hc => iff_of_true hc (by simp)⟩
  | close respectDelays =>
    cases hstep
    refine ⟨h.firstClose respectDelays, fun hc => iff_of_true ?_ (by simp)⟩
    have hacc : (p.firstClose respectDelays).accepted = p.accepted := by
      rw [Pool.firstClose]
      split <;> rfl
    rw [Conserved, hacc, held_firstClose h]
    exact hc
  | addStep i a =>
    obtain ⟨call, -, hadd⟩ := Option.bind_eq_some_iff.1 hstep
    exact ⟨h.addStep hadd, fun hc => iff_of_true (conserved_addStep hc hadd) (by simp)⟩
  | processorStep a =>
    have hspec := processorStep_spec hstep
    refine ⟨h.processorStep hstep, fun hc => ?_⟩
    rw [Conserved] at hc
    rw [Conserved, hspec.accepted, hc]
    obtain ⟨ha, hheld⟩ | ⟨rfl, v, hheld⟩ := hspec.held
    · exact iff_of_true hheld.symm (by simpa using ha)
    · refine iff_of_false (fun heq => ?_) (by simp)
      rw [hheld] at heq
      simpa using congrArg Multiset.card heq
  | closerStep a =>
    obtain ⟨hinv, hacc, hheld⟩ := h.closerStep hstep
    refine ⟨hinv, fun hc => iff_of_true ?_ (by simp)⟩
    rw [Conserved, hacc, hheld]
    exact hc

theorem Enabled.step_eq {a : Act α} (h : p.Enabled a) : p.step a = some (p.next a) := by
  obtain ⟨p', hp'⟩ := Option.isSome_iff_exists.1 h
  rw [next, hp', Option.getD_some]

theorem Inv.safe (h : p.Inv) (hc : p.Conserved) : p.Safe := by
  refine ⟨hc, fun result hresult => ?_⟩
  have hstopped := h.stopped (by rw [hresult]; rfl)
  have hheap := h.heap (by rw [hresult]; rfl)
  have hcollector := h.collector (by rw [hresult]; rfl)
  rw [Conserved] at hc
  rw [hc]
  simp [held, hresult, hstopped, hheap, hcollector, Processor.hand, Closer.hand, Closer.result]

/-- Nobody sends on the closed channel, which would be a panic. -/
theorem Inv.not_sending (h : p.Inv) (ho : p.outputClosed = true) :
    p.processor.hand = 0 ∧ p.closer.hand = 0 := by
  have hcloses := h.output ho
  have hstopped := h.stopped (Closer.drains_of_closesOutput hcloses)
  refine ⟨by rw [hstopped]; rfl, ?_⟩
  cases hc : p.closer with
  | sending respectDelays item =>
    rw [hc] at hcloses
    cases hcloses
  | _ => rfl

end Pool

theorem pool_conserves_iff (capacity : Int) (acts : List (Act α))
    (he : Trace.Along Pool.next Pool.Enabled (newPool capacity) acts) :
    Trace.Always Pool.next Pool.Safe (newPool capacity) acts ↔
      Act.processorStep .giveUp ∉ acts := by
  have hinv : Trace.Always Pool.next Pool.Inv (newPool capacity) acts :=
    Trace.always_of_step (fun p a hp ha => (hp.step ha.step_eq).1) (Pool.inv_newPool capacity) he
  have hconserved : Trace.Always Pool.next (fun p => p.Inv ∧ p.Conserved) (newPool capacity) acts ↔
      Trace.Along Pool.next (fun _ a => a ≠ .processorStep .giveUp) (newPool capacity) acts := by
    refine Trace.always_iff_along (fun p a hp ha => ?_)
      ⟨Pool.inv_newPool capacity, rfl⟩ he
    obtain ⟨hnext, hiff⟩ := hp.1.step ha.step_eq
    rw [and_iff_right hnext]
    exact hiff hp.2
  have hmem : Act.processorStep .giveUp ∉ acts ↔ ∀ a ∈ acts, a ≠ .processorStep .giveUp :=
    ⟨fun h a ha heq => h (heq ▸ ha), fun h hmem => h _ hmem rfl⟩
  rw [hmem, ← Trace.along_iff_forall_mem, ← hconserved]
  constructor
  · exact fun hsafe => hinv.and (hsafe.mono fun p hp => hp.1)
  · exact fun h => h.mono fun p hp => hp.1.safe hp.2

/-- The first item is received, the second one is returned by `CloseImmediate`. -/
def twoItems : List (Act Nat) :=
  [.add 1 0, .addStep 0 (.tryAdd true), .add 2 100, .addStep 0 (.tryAdd false),
    .processorStep .look, .processorStep .compare, .processorStep .begin, .processorStep (.pop 0),
    .processorStep (.send .consumer), .processorStep .finish, .processorStep .look,
    .processorStep .compare, .close false, .closerStep .cancel, .processorStep .stop,
    .closerStep .wait, .closerStep (.pop 0), .closerStep (.send .collector), .closerStep .finish,
    .closerStep .closeOutput, .closerStep .collect]

theorem pool_conserves_two :
    (twoItems.foldl Pool.next (newPool 0)).closer = .returned (some [2]) ∧
      Trace.Always Pool.next Pool.Safe (newPool 0) twoItems :=
  ⟨by decide, (pool_conserves_iff 0 twoItems (by decide)).2 (by decide)⟩

/-- The pool is closed while the processor waits for someone to receive the item. -/
def closedInHand : List (Act Nat) :=
  [.add 1 0, .addStep 0 (.tryAdd true), .processorStep .look, .processorStep .compare,
    .processorStep .begin, .processorStep (.pop 0), .close true, .closerStep .cancel,
    .processorStep .giveUp, .processorStep .look, .processorStep .stop, .closerStep .wait,
    .closerStep .finish, .closerStep .closeOutput]

theorem pool_loses_item :
    Trace.Along Pool.next Pool.Enabled (newPool 0) closedInHand ∧
      (closedInHand.foldl Pool.next (newPool 0)).added = [(⟨1, 0, 0⟩, none)] ∧
      (closedInHand.foldl Pool.next (newPool 0)).closer = .returned none ∧
      (closedInHand.foldl Pool.next (newPool 0)).received = [] ∧
      ¬ Trace.Always Pool.next Pool.Safe (newPool 0) closedInHand := by
  have hlost : ¬ (closedInHand.foldl Pool.next (newPool 0)).Conserved := by
    unfold Pool.Conserved
    decide
  exact ⟨by decide, by decide, by decide, by decide, fun hsafe => hlost hsafe.last.1⟩

end Delay
