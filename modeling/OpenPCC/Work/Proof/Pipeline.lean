import Mathlib.Data.Finset.Card
import OpenPCC.Lib.Trace
import OpenPCC.Work.Pipeline

/-!
# Shared outputs are closed once, and not early

The count of an output is the number of the steps that list it and have not marked it
(`Inv.outputs`). It starts as the number of all that list it (`checkSteps_ok`), and a step marks
each of its outputs once (`Inv.todo`). So the count is positive when a step marks the output, and
it is zero exactly after the last of them, which calls the closer (`Inv.closes`).
-/

namespace Work

open Go

variable {C : Type}

/-! ## Counting the steps -/

section

variable [DecidableEq C]

theorem addMany_ok {l : List (Σ _ : Bytes, C)} {c c' : SharedOutputs C} (hl : l.NodupKeys)
    (h : c.addMany l = .ok c') (id : Bytes) :
    (l.dlookup id = none ∧ c'.lookup id = c.lookup id) ∨
      ∃ closer, l.dlookup id = some closer ∧ (∀ sc, c.lookup id = some sc → sc.closer = closer) ∧
        c'.lookup id = some ⟨(c.lookup id).elim 0 (·.refs) + 1, closer⟩ := by
  induction l generalizing c with
  | nil =>
    cases h
    exact .inl ⟨rfl, rfl⟩
  | cons output l ih =>
    obtain ⟨id', closer⟩ := output
    obtain ⟨hfresh, hl⟩ := List.nodupKeys_cons.1 hl
    rw [SharedOutputs.addMany] at h
    split at h
    · cases h
    next hcloser =>
    rw [not_not] at hcloser
    have htail := ih hl h
    by_cases hid : id = id'
    · subst hid
      have hnone : l.dlookup id = none := List.dlookup_eq_none.2 hfresh
      obtain ⟨-, hlookup⟩ | ⟨closer', hsome, -⟩ := htail
      · rw [AList.lookup_insert] at hlookup
        refine .inr ⟨closer, List.dlookup_cons_eq .., fun sc hsc => ?_, ?_⟩
        · rw [hsc] at hcloser
          exact hcloser
        · rw [hlookup]
          cases hc : c.lookup id with
          | none => rfl
          | some sc =>
            rw [hc] at hcloser
            simp only [Option.getD_some] at hcloser
            rw [← hcloser]
            rfl
      · rw [hnone] at hsome
        cases hsome
    · rw [List.dlookup_cons_ne _ _ hid]
      rw [AList.lookup_insert_ne hid] at htail
      exact htail

/-- `sc` is the shared output `id` of `steps`: it counts the steps that list it, and all of them
list its closer. -/
structure Counts (steps : List (PipelineStep C)) (id : Bytes) (sc : Option (SharedOutput C)) :
    Prop where
  refs : sc.elim 0 (·.refs) = steps.countP (id ∈ ·.outputs)
  closer : ∀ s ∈ steps, ∀ c, s.outputs.lookup id = some c → ∃ sc', sc = some sc' ∧ sc'.closer = c

theorem Counts.append {steps : List (PipelineStep C)} {s : PipelineStep C} {c c' : SharedOutputs C}
    (hc : ∀ id, Counts steps id (c.lookup id)) (h : c.addMany s.outputs.entries = .ok c')
    (id : Bytes) : Counts (steps ++ [s]) id (c'.lookup id) := by
  obtain ⟨hnone, hlookup⟩ | ⟨closer, hsome, hsame, hlookup⟩ :=
    addMany_ok s.outputs.nodupKeys h id
  · have hnot : id ∉ s.outputs := AList.lookup_eq_none.1 hnone
    rw [hlookup]
    refine ⟨?_, fun s' hs' closer hcloser => ?_⟩
    · simpa [hnot] using (hc id).refs
    · rcases List.mem_append.1 hs' with hs' | hs'
      · exact (hc id).closer s' hs' closer hcloser
      · rw [List.mem_singleton.1 hs', AList.lookup, hnone] at hcloser
        cases hcloser
  · have hmem : id ∈ s.outputs := AList.lookup_isSome.1 (by rw [AList.lookup, hsome]; rfl)
    rw [hlookup]
    refine ⟨?_, fun s' hs' closer' hcloser => ?_⟩
    · simp [hmem, (hc id).refs]
    · refine ⟨_, rfl, ?_⟩
      rcases List.mem_append.1 hs' with hs' | hs'
      · obtain ⟨sc, hsc, rfl⟩ := (hc id).closer s' hs' closer' hcloser
        exact (hsame sc hsc).symm
      · rw [List.mem_singleton.1 hs', AList.lookup, hsome] at hcloser
        exact Option.some.inj hcloser

theorem checkSteps_ok {steps rest : List (PipelineStep C)} {i : Nat} {seenSteps : List Bytes}
    {c c' : SharedOutputs C} (hc : ∀ id, Counts steps id (c.lookup id))
    (h : checkSteps i seenSteps c rest = .ok c') (id : Bytes) :
    Counts (steps ++ rest) id (c'.lookup id) := by
  induction rest generalizing steps i seenSteps c with
  | nil =>
    cases h
    rw [List.append_nil]
    exact hc id
  | cons s rest ih =>
    rw [checkSteps] at h
    split at h
    · cases h
    split at h
    · cases h
    split at h
    · cases h
    cases hadd : c.addMany s.outputs.entries with
    | error e =>
      rw [hadd] at h
      cases h
    | ok c₁ =>
      rw [hadd] at h
      rw [← List.singleton_append, ← List.append_assoc]
      exact ih (Counts.append hc hadd) h

end

/-! ## The invariant -/

/-- The outputs of the step `s` that are still to be marked. -/
def Phase.todo (s : PipelineStep C) : Phase C → List Bytes
  | running => s.outputs.keys
  | marking todo _ _ => todo
  | closing _ _ todo _ _ => todo
  | finished _ => []

@[simp]
theorem Phase.todo_loop (s : PipelineStep C) (todo : List Bytes) (err doneErr : Option Err) :
    (Phase.loop todo err doneErr).todo s = todo := by
  rw [Phase.loop]
  split
  · next h => exact h.symm
  · rfl

theorem Phase.loop_ne_running {todo : List Bytes} {err doneErr : Option Err} :
    (Phase.loop todo err doneErr : Phase C) ≠ .running := by
  rw [Phase.loop]
  split <;> simp

theorem Phase.loop_ne_closing {todo todo' : List Bytes} {err err' doneErr doneErr' : Option Err}
    {id : Bytes} {closer : C} :
    Phase.loop todo err doneErr ≠ .closing id closer todo' err' doneErr' := by
  rw [Phase.loop]
  split <;> simp

/-! The goroutine `i` goes on to `ph`. -/

section

variable {phase : Nat → Phase C} {i k : Nat} {ph : Phase C}

theorem update_ne_running (hph : ph ≠ .running) (hk : phase k ≠ .running) :
    Function.update phase i ph k ≠ .running := by
  by_cases hik : k = i
  · subst hik
    rw [Function.update_self]
    exact hph
  · rw [Function.update_of_ne hik]
    exact hk

theorem update_of_ne_phase {ph' : Phase C} (hi : phase i ≠ ph') (hk : phase k = ph') :
    Function.update phase i ph k = ph' := by
  have hik : k ≠ i := by
    rintro rfl
    exact hi hk
  rw [Function.update_of_ne hik]
  exact hk

end

namespace Pipeline

variable {steps : List (PipelineStep C)} {p p' : Pipeline C}

/-- The steps that list the output `id` and have not marked it. -/
def unmarked (steps : List (PipelineStep C)) (marks : List (Nat × Bytes)) (id : Bytes) :
    Finset Nat :=
  (Finset.range steps.length).filter fun i => Lists steps i id ∧ (i, id) ∉ marks

theorem Lists.lt {i : Nat} {id : Bytes} (h : Lists steps i id) : i < steps.length := by
  obtain ⟨s, hs, -⟩ := h
  exact (List.getElem?_eq_some_iff.1 hs).1

theorem mem_unmarked {marks : List (Nat × Bytes)} {i : Nat} {id : Bytes} :
    i ∈ unmarked steps marks id ↔ Lists steps i id ∧ (i, id) ∉ marks := by
  rw [unmarked, Finset.mem_filter, Finset.mem_range]
  exact ⟨fun h => h.2, fun h => ⟨h.1.lt, h⟩⟩

theorem card_unmarked_nil (steps : List (PipelineStep C)) (id : Bytes) :
    (unmarked steps [] id).card = steps.countP (id ∈ ·.outputs) := by
  have hlists (steps : List (PipelineStep C)) :
      ((Finset.range steps.length).filter (Lists steps · id)).card =
        steps.countP (id ∈ ·.outputs) := by
    induction steps using List.reverseRecOn with
    | nil => rfl
    | append_singleton steps s ih =>
      have hold : (Finset.range steps.length).filter (Lists (steps ++ [s]) · id) =
          (Finset.range steps.length).filter (Lists steps · id) := by
        refine Finset.filter_congr fun i hi => ?_
        rw [Lists, Lists, List.getElem?_append_left (Finset.mem_range.1 hi)]
      have hnew : Lists (steps ++ [s]) steps.length id ↔ id ∈ s.outputs := by
        simp [Lists]
      rw [List.length_append, List.length_singleton, Finset.range_add_one, Finset.filter_insert,
        hold, List.countP_append, ← ih]
      by_cases hid : id ∈ s.outputs
      · rw [if_pos (hnew.2 hid), Finset.card_insert_of_notMem (by simp)]
        simp [hid]
      · rw [if_neg (mt hnew.1 hid)]
        simp [hid]
  rw [← hlists, unmarked]
  simp

structure Inv (steps : List (PipelineStep C)) (p : Pipeline C) : Prop where
  started : ∀ i, p.phase i ≠ .running → ∃ s, steps[i]? = some s
  todo : ∀ i s, steps[i]? = some s → ((p.phase i).todo s).Nodup ∧
    ∀ id, id ∈ (p.phase i).todo s ↔ id ∈ s.outputs ∧ (i, id) ∉ p.marks
  outputs : ∀ i id, Lists steps i id → ∃ sc, p.outputs.lookup id = some sc ∧
    sc.refs = (unmarked steps p.marks id).card ∧
    ∀ s ∈ steps, ∀ c, s.outputs.lookup id = some c → c = sc.closer
  closing : ∀ i id closer todo err doneErr, p.phase i = .closing id closer todo err doneErr →
    Lists steps i id ∧ p.MayClose steps i id closer
  closed : ∀ i id, Lists steps i id → unmarked steps p.marks id = ∅ →
    (∃ j closer todo err doneErr, p.phase j = .closing id closer todo err doneErr) ∨
      ∃ j closer, p.closes.filter (·.2.1 = id) = [(j, id, closer)]
  opened : ∀ id, (unmarked steps p.marks id).Nonempty → ∀ c ∈ p.closes, c.2.1 ≠ id

theorem Inv.ne_running (hp : Inv steps p) {i : Nat} {id : Bytes} (hlists : Lists steps i id)
    (hmarked : (i, id) ∈ p.marks) : p.phase i ≠ .running := by
  obtain ⟨s, hs, hid⟩ := hlists
  intro hphase
  have hkeys := (hp.todo i s hs).2 id
  rw [hphase] at hkeys
  exact (hkeys.1 (AList.mem_keys.1 hid)).2 hmarked

/-! ### Returning -/

theorem Inv.returns (hp : Inv steps p) {i : Nat} {err : Option Err}
    (h : p.step steps (i, .returns err) = some p') : Inv steps p' := by
  simp only [step] at h
  split at h
  · next s hs hphase =>
    cases h
    set err := err.map (Err.errorf "step %s failed: %w" [.str s.id])
    refine ⟨fun j hj => ?_, fun j s' hs' => ?_, hp.outputs,
      fun j id closer todo err' doneErr hj => ?_, fun j id hlists hempty => ?_, hp.opened⟩
    · by_cases hij : j = i
      · exact ⟨s, hij ▸ hs⟩
      · simp only [Function.update_of_ne hij] at hj
        exact hp.started j hj
    · by_cases hij : j = i
      · subst hij
        obtain rfl := Option.some.inj (hs.symm.trans hs')
        have hold := hp.todo j s hs
        rw [hphase] at hold
        simp only [Function.update_self, Phase.todo_loop]
        exact hold
      · simp only [Function.update_of_ne hij]
        exact hp.todo j s' hs'
    · by_cases hij : j = i
      · subst hij
        simp only [Function.update_self] at hj
        exact absurd hj Phase.loop_ne_closing
      · simp only [Function.update_of_ne hij] at hj
        obtain ⟨hlists, hmay⟩ := hp.closing j id closer todo err' doneErr hj
        exact ⟨hlists, { hmay with
          returned := fun k hk => update_ne_running Phase.loop_ne_running (hmay.returned k hk) }⟩
    · rcases hp.closed j id hlists hempty with ⟨k, closer, todo, err', doneErr, hk⟩ | hclosed
      · exact .inl ⟨k, closer, todo, err', doneErr,
          update_of_ne_phase (by rw [hphase]; simp) hk⟩
      · exact .inr hclosed
  · cases h

/-! ### Closing -/

theorem Inv.closes (hp : Inv steps p) {i : Nat} {closeErr : Option Err}
    (h : p.step steps (i, .closes closeErr) = some p') : Inv steps p' := by
  simp only [step] at h
  split at h
  · next id closer todo err doneErr hphase =>
    cases h
    obtain ⟨hlists, hmay⟩ := hp.closing i id closer todo err doneErr hphase
    have hnone : p.closes.filter (·.2.1 = id) = [] := by
      simpa [List.filter_eq_nil_iff] using hmay.first
    refine ⟨fun j hj => ?_, fun j s hs => ?_, hp.outputs,
      fun j id' closer' todo' err' doneErr' hj => ?_, fun j id' hlists' hempty => ?_,
      fun id' hopen c hc => ?_⟩
    · by_cases hij : j = i
      · refine hp.started j ?_
        rw [hij, hphase]
        simp
      · simp only [Function.update_of_ne hij] at hj
        exact hp.started j hj
    · by_cases hij : j = i
      · subst hij
        have hold := hp.todo j s hs
        rw [hphase] at hold
        simp only [Function.update_self, Phase.todo_loop]
        exact hold
      · simp only [Function.update_of_ne hij]
        exact hp.todo j s hs
    · by_cases hij : j = i
      · subst hij
        simp only [Function.update_self] at hj
        exact absurd hj Phase.loop_ne_closing
      · simp only [Function.update_of_ne hij] at hj
        obtain ⟨hlists', hmay'⟩ := hp.closing j id' closer' todo' err' doneErr' hj
        -- only the last of the steps that mark an output closes it
        have hne : id' ≠ id := by
          rintro rfl
          have heq := hmay'.last.symm.trans hmay.last
          simp only [Option.some.injEq, Prod.mk.injEq, and_true] at heq
          exact hij heq
        refine ⟨hlists', { hmay' with
          returned := fun k hk => update_ne_running Phase.loop_ne_running (hmay'.returned k hk)
          first := fun c hc => ?_ }⟩
        rcases List.mem_append.1 hc with hc | hc
        · exact hmay'.first c hc
        · rw [List.mem_singleton.1 hc]
          exact hne.symm
    · by_cases hid : id' = id
      · subst hid
        exact .inr ⟨i, closer, by simp [List.filter_append, hnone]⟩
      · rcases hp.closed j id' hlists' hempty with ⟨k, closer', todo', err', doneErr', hk⟩ | hclosed
        · exact .inl ⟨k, closer', todo', err', doneErr',
            update_of_ne_phase (by rw [hphase]; simp [Ne.symm hid]) hk⟩
        · obtain ⟨k, closer', hk⟩ := hclosed
          exact .inr ⟨k, closer', by simp [List.filter_append, hk, Ne.symm hid]⟩
    · rcases List.mem_append.1 hc with hc | hc
      · exact hp.opened id' hopen c hc
      · rw [List.mem_singleton.1 hc]
        rintro rfl
        obtain ⟨k, hk⟩ := hopen
        obtain ⟨hk, hnot⟩ := mem_unmarked.1 hk
        exact hnot (hmay.marked k hk)
  · cases h

/-! ### Marking -/

theorem done_of_pos {c : SharedOutputs C} {id : Bytes} {sc : SharedOutput C}
    (hsc : c.lookup id = some sc) (hpos : 0 < sc.refs) :
    c.done id = (if 1 < sc.refs then .pending else .close sc.closer,
      c.insert id { sc with refs := sc.refs - 1 }) := by
  simp only [SharedOutputs.done, hsc]
  rw [if_neg (by omega)]
  by_cases h : 1 < sc.refs
  · rw [if_pos (by omega), if_pos h]
  · rw [if_neg (by omega), if_neg h]

theorem Inv.mark_spec (hp : Inv steps p) {i : Nat} {id : Bytes} {todo : List Bytes}
    {err doneErr : Option Err} (hphase : p.phase i = .marking todo err doneErr) (hid : id ∈ todo) :
    i ∈ unmarked steps p.marks id ∧ ∃ sc, p.outputs.lookup id = some sc ∧
      sc.refs = (unmarked steps p.marks id).card ∧ 0 < sc.refs ∧
      ∀ s ∈ steps, ∀ c, s.outputs.lookup id = some c → c = sc.closer := by
  obtain ⟨s, hs⟩ := hp.started i (by rw [hphase]; simp)
  have hold := (hp.todo i s hs).2 id
  rw [hphase] at hold
  obtain ⟨hmem, hnot⟩ := hold.1 hid
  have hlists : Lists steps i id := ⟨s, hs, hmem⟩
  have hi : i ∈ unmarked steps p.marks id := mem_unmarked.2 ⟨hlists, hnot⟩
  obtain ⟨sc, hsc, hrefs, hcloser⟩ := hp.outputs i id hlists
  refine ⟨hi, sc, hsc, hrefs, ?_, hcloser⟩
  have hpos := Finset.card_pos.2 ⟨i, hi⟩
  omega

theorem unmarked_append (marks : List (Nat × Bytes)) (i : Nat) (id id' : Bytes) :
    unmarked steps (marks ++ [(i, id)]) id' =
      if id' = id then (unmarked steps marks id').erase i else unmarked steps marks id' := by
  ext j
  split
  · next h =>
    subst h
    rw [Finset.mem_erase, mem_unmarked, mem_unmarked]
    simp only [List.mem_append, List.mem_singleton, Prod.mk.injEq, and_true, not_or]
    tauto
  · next h =>
    rw [mem_unmarked, mem_unmarked]
    simp [h]

/-- What a step does when it marks an output: it goes on to the next one, unless this was the last
mark. -/
theorem Inv.marks_cases (hp : Inv steps p) {i : Nat} {id : Bytes}
    (h : p.step steps (i, .marks id) = some p') :
    ∃ todo err doneErr sc phase, p.phase i = .marking todo err doneErr ∧ id ∈ todo ∧
      i ∈ unmarked steps p.marks id ∧ p.outputs.lookup id = some sc ∧
      sc.refs = (unmarked steps p.marks id).card ∧
      (∀ s ∈ steps, ∀ c, s.outputs.lookup id = some c → c = sc.closer) ∧
      (sc.refs ≠ 1 ∧ (∃ doneErr', phase = .loop (todo.erase id) err doneErr') ∨
        sc.refs = 1 ∧ phase = .closing id sc.closer (todo.erase id) err doneErr) ∧
      p' = { p with
        outputs := p.outputs.insert id { sc with refs := sc.refs - 1 }
        phase := Function.update p.phase i phase
        marks := p.marks ++ [(i, id)] } := by
  simp only [step] at h
  split at h
  · next todo err doneErr hphase =>
    split at h
    · next hid =>
      obtain ⟨hi, sc, hsc, hrefs, hpos, hcloser⟩ := hp.mark_spec hphase hid
      rw [done_of_pos hsc hpos] at h
      refine ⟨todo, err, doneErr, sc, _, hphase, hid, hi, hsc, hrefs, hcloser, ?_,
        (Option.some.inj h).symm⟩
      by_cases hmore : 1 < sc.refs
      · rw [if_pos hmore]
        exact .inl ⟨by omega, _, rfl⟩
      · rw [if_neg hmore]
        exact .inr ⟨by omega, rfl⟩
    · cases h
  · cases h

theorem Inv.todo_erase (hp : Inv steps p) {i : Nat} {s : PipelineStep C} {todo : List Bytes}
    {err doneErr : Option Err} (hs : steps[i]? = some s)
    (hphase : p.phase i = .marking todo err doneErr) (id : Bytes) :
    (todo.erase id).Nodup ∧
      ∀ id', id' ∈ todo.erase id ↔ id' ∈ s.outputs ∧ (i, id') ∉ p.marks ++ [(i, id)] := by
  obtain ⟨hnodup, hiff⟩ := hp.todo i s hs
  rw [hphase, Phase.todo] at hnodup
  refine ⟨hnodup.erase id, fun id' => ?_⟩
  have hold := hiff id'
  rw [hphase, Phase.todo] at hold
  rw [hnodup.mem_erase_iff, hold]
  simp only [List.mem_append, List.mem_singleton, Prod.mk.injEq, true_and, not_or]
  tauto

theorem Inv.mayClose_of_last (hp : Inv steps p) {i : Nat} {id : Bytes} {closer : C}
    {outputs : SharedOutputs C} {phase : Phase C} (hphase : phase ≠ .running)
    (hi : i ∈ unmarked steps p.marks id) (hone : (unmarked steps p.marks id).card = 1)
    (hcloser : ∀ s ∈ steps, ∀ c, s.outputs.lookup id = some c → c = closer) :
    MayClose steps
      { p with outputs, phase := Function.update p.phase i phase, marks := p.marks ++ [(i, id)] }
      i id closer := by
  have hmarked (k : Nat) (hk : Lists steps k id) (hik : k ≠ i) : (k, id) ∈ p.marks := by
    by_contra hkm
    exact hik (Finset.card_le_one.1 hone.le k (mem_unmarked.2 ⟨hk, hkm⟩) i hi)
  refine ⟨fun k hk => ?_, fun k hk => ?_, ?_, hcloser, hp.opened id ⟨i, hi⟩⟩
  · by_cases hik : k = i
    · subst hik
      simpa using hphase
    · exact update_ne_running hphase (hp.ne_running hk (hmarked k hk hik))
  · by_cases hik : k = i
    · subst hik
      simp
    · exact List.mem_append_left _ (hmarked k hk hik)
  · simp [List.filter_append]

theorem Inv.marks (hp : Inv steps p) {i : Nat} {id : Bytes}
    (h : p.step steps (i, .marks id) = some p') : Inv steps p' := by
  obtain ⟨todo, err, doneErr, sc, phase, hphase, hid, hi, hsc, hrefs, hcloser, hnext, rfl⟩ :=
    hp.marks_cases h
  obtain ⟨hlists, hnot⟩ := mem_unmarked.1 hi
  have hrunning : phase ≠ .running := by
    obtain ⟨-, doneErr', rfl⟩ | ⟨-, rfl⟩ := hnext
    · exact Phase.loop_ne_running
    · simp
  refine ⟨fun j hj => ?_, fun j s hs => ?_, fun j id' hlists' => ?_,
    fun j id' closer' todo' err' doneErr' hj => ?_, fun j id' hlists' hempty => ?_,
    fun id' hopen => ?_⟩
  · by_cases hij : j = i
    · obtain ⟨s, hs, -⟩ := hlists
      exact ⟨s, hij ▸ hs⟩
    · simp only [Function.update_of_ne hij] at hj
      exact hp.started j hj
  · by_cases hij : j = i
    · subst hij
      have htodo : phase.todo s = todo.erase id := by
        obtain ⟨-, doneErr', rfl⟩ | ⟨-, rfl⟩ := hnext
        · exact Phase.todo_loop ..
        · rfl
      simp only [Function.update_self, htodo]
      exact hp.todo_erase hs hphase id
    · obtain ⟨hnodup, hiff⟩ := hp.todo j s hs
      simp only [Function.update_of_ne hij]
      exact ⟨hnodup, fun id' => by simp [hiff, hij]⟩
  · simp only [unmarked_append]
    by_cases hid' : id' = id
    · subst hid'
      refine ⟨_, AList.lookup_insert _, ?_, hcloser⟩
      rw [if_pos rfl, Finset.card_erase_of_mem hi]
      have hpos := Finset.card_pos.2 ⟨i, hi⟩
      simp only
      omega
    · rw [AList.lookup_insert_ne hid', if_neg hid']
      exact hp.outputs j id' hlists'
  · by_cases hij : j = i
    · subst hij
      simp only [Function.update_self] at hj
      obtain ⟨-, doneErr'', rfl⟩ | ⟨hone, rfl⟩ := hnext
      · exact absurd hj Phase.loop_ne_closing
      · cases hj
        exact ⟨hlists, hp.mayClose_of_last hrunning hi (by omega) hcloser⟩
    · simp only [Function.update_of_ne hij] at hj
      obtain ⟨hlists', hmay⟩ := hp.closing j id' closer' todo' err' doneErr' hj
      have hne : id ≠ id' := by
        rintro rfl
        exact hnot (hmay.marked i hlists)
      refine ⟨hlists', { hmay with
        returned := fun k hk => update_ne_running hrunning (hmay.returned k hk)
        marked := fun k hk => List.mem_append_left _ (hmay.marked k hk)
        last := ?_ }⟩
      simpa [List.filter_append, hne] using hmay.last
  · simp only [unmarked_append] at hempty
    by_cases hid' : id' = id
    · subst hid'
      rw [if_pos rfl] at hempty
      obtain ⟨hmore, -⟩ | ⟨-, rfl⟩ := hnext
      · have hcard := Finset.card_erase_of_mem hi
        rw [hempty, Finset.card_empty] at hcard
        have hpos := Finset.card_pos.2 ⟨i, hi⟩
        omega
      · exact .inl ⟨i, _, _, _, _, Function.update_self ..⟩
    · rw [if_neg hid'] at hempty
      rcases hp.closed j id' hlists' hempty with ⟨k, closer', todo', err', doneErr', hk⟩ | hclosed
      · exact .inl ⟨k, closer', todo', err', doneErr',
          update_of_ne_phase (by rw [hphase]; simp) hk⟩
      · exact .inr hclosed
  · refine hp.opened id' ?_
    simp only [unmarked_append] at hopen
    split at hopen
    · exact hopen.mono (Finset.erase_subset ..)
    · exact hopen

/-! ## Runs -/

theorem Inv.next (hp : Inv steps p) {a : Nat × Act} (ha : p.Enabled steps a) :
    Inv steps (p.next steps a) := by
  obtain ⟨p', h⟩ := Option.isSome_iff_exists.1 ha
  rw [Pipeline.next, h, Option.getD_some]
  obtain ⟨i, act⟩ := a
  cases act with
  | returns err => exact hp.returns h
  | marks id => exact hp.marks h
  | closes closeErr => exact hp.closes h

theorem Inv.sound (hp : Inv steps p) {a : Nat × Act} (ha : p.Enabled steps a) :
    p.Sound steps a := by
  obtain ⟨p', h⟩ := Option.isSome_iff_exists.1 ha
  obtain ⟨i, act⟩ := a
  cases act with
  | returns err => trivial
  | marks id =>
    obtain ⟨todo, err, doneErr, sc, phase, hphase, hid, -⟩ := hp.marks_cases h
    obtain ⟨-, sc, hsc, -, hpos, -⟩ := hp.mark_spec hphase hid
    intro e
    rw [done_of_pos hsc hpos]
    split <;> simp
  | closes closeErr =>
    intro id closer todo err doneErr hphase
    exact (hp.closing i id closer todo err doneErr hphase).2

theorem Inv.closedOnce (hp : Inv steps p) : p.ClosedOnce steps := by
  intro hfinished i id hlists
  have hempty : unmarked steps p.marks id = ∅ := by
    rw [Finset.eq_empty_iff_forall_notMem]
    intro j hj
    obtain ⟨hlists, hnot⟩ := mem_unmarked.1 hj
    obtain ⟨err, hphase⟩ := hfinished j hlists.lt
    obtain ⟨s, hs, hid⟩ := hlists
    have htodo := ((hp.todo j s hs).2 id).2 ⟨hid, hnot⟩
    rw [hphase, Phase.todo] at htodo
    cases htodo
  rcases hp.closed i id hlists hempty with ⟨j, closer, todo, err, doneErr, hphase⟩ | hclosed
  · obtain ⟨err', hphase'⟩ := hfinished j (hp.closing _ _ _ _ _ _ hphase).1.lt
    rw [hphase] at hphase'
    cases hphase'
  · exact hclosed

theorem Inv.of_runPipeline [DecidableEq C] (h : runPipeline steps = .ok p) : Inv steps p := by
  rw [runPipeline] at h
  split at h
  · cases h
  next outputs hcheck =>
  cases h
  have hnone : ∀ id, Counts [] id ((∅ : SharedOutputs C).lookup id) :=
    fun id => ⟨rfl, by simp⟩
  have hcounts := checkSteps_ok hnone hcheck
  simp only [List.nil_append] at hcounts
  refine ⟨by simp, fun i s hs => ?_, fun i id hlists => ?_, by simp, fun i id hlists hempty => ?_,
    by simp⟩
  · exact ⟨s.outputs.keys_nodup, by simp [Phase.todo, AList.mem_keys]⟩
  · obtain ⟨s, hs, hid⟩ := hlists
    obtain ⟨c, hc⟩ := Option.isSome_iff_exists.1 (AList.lookup_isSome.2 hid)
    obtain ⟨sc, hsc, -⟩ := (hcounts id).closer s (List.mem_of_getElem? hs) c hc
    refine ⟨sc, hsc, ?_, fun s' hs' c' hc' => ?_⟩
    · have hrefs := (hcounts id).refs
      rw [hsc] at hrefs
      rw [card_unmarked_nil]
      exact hrefs
    · obtain ⟨sc', hsc', hcloser⟩ := (hcounts id).closer s' hs' c' hc'
      rw [hsc, Option.some.injEq] at hsc'
      rw [hsc', hcloser]
  · have hi : i ∈ unmarked steps [] id := mem_unmarked.2 ⟨hlists, by simp⟩
    rw [show unmarked steps [] id = ∅ from hempty] at hi
    cases hi

/-- In every run of a pipeline that was accepted, `done` finds a matching add, and the closer of an
output is called by the last step that marks it, after all that list the output have returned. At
the end every output has been closed once. -/
theorem outputs_closed_once [DecidableEq C] (steps : List (PipelineStep C)) (p : Pipeline C)
    (h : runPipeline steps = .ok p) (acts : List (Nat × Act))
    (he : Trace.Along (next steps) (Enabled steps) p acts) :
    Trace.Along (next steps) (Sound steps) p acts ∧
      Trace.Always (next steps) (ClosedOnce steps) p acts := by
  have hinv : Inv steps p := .of_runPipeline h
  have hkeep (p : Pipeline C) (a : Nat × Act) (hp : Inv steps p) (ha : p.Enabled steps a) :
      Inv steps (p.next steps a) := hp.next ha
  refine ⟨Trace.along_of_step hkeep (fun p a hp ha => hp.sound ha) hinv he, ?_⟩
  exact (Trace.always_of_step hkeep hinv he).mono fun p hp => hp.closedOnce

/-- Two steps share an output, and the second one has another. The first one fails and marks the
shared output last. -/
theorem outputs_closed_once_shared :
    let steps : List (PipelineStep Nat) :=
      [⟨[10], AList.singleton [1] 7, true⟩, ⟨[11], (AList.singleton [1] 7).insert [2] 8, true⟩]
    let acts : List (Nat × Act) :=
      [(1, .returns none), (1, .marks [1]), (0, .returns (some (.var .canceled))), (0, .marks [1]),
        (1, .marks [2]), (1, .closes none), (0, .closes none)]
    let p : Pipeline Nat :=
      { outputs := ((AList.singleton [1] ⟨1, 7⟩).insert [2] ⟨1, 8⟩).insert [1] ⟨2, 7⟩ }
    runPipeline steps = .ok p ∧ Trace.Along (next steps) (Enabled steps) p acts ∧
      (acts.foldl (next steps) p).closes = [(1, [2], 8), (0, [1], 7)] ∧
      Trace.Along (next steps) (Sound steps) p acts := by
  intro steps acts p
  have hrun : runPipeline steps = .ok p := by rfl
  have henabled : Trace.Along (next steps) (Enabled steps) p acts := by decide
  exact ⟨hrun, henabled, by decide, (outputs_closed_once steps p hrun acts henabled).1⟩

end Pipeline

end Work
