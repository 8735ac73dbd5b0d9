import Mathlib.Data.Option.Basic
import Mathlib.Tactic.Abel
import OpenPCC.Lib.Bag
import OpenPCC.Lib.Entries
import OpenPCC.Lib.Trace
import OpenPCC.Wallet.Proof.Batches

/-!
# Prefetched batches are released exactly once

Besides `Flow` and `Collected` the steps of the pipeline keep account of the credits: each is in the
batch or in a transfer, and there are as many transfers as requests were served (`Accounts`).
-/

namespace Wallet.Prefetch

open Go Anonpay

variable {s s' : Prefetch} {b : Nat} {cur : Option Nat} {batch : Batch}

/-! ## The credits -/

structure Accounts (s : Prefetch) : Prop where
  waiting {b : Nat} {batch : Batch} : s.batches[b]? = some batch →
    batch.stack.credits.length + batch.served =
      batch.original.length + s.intents.countP (·.rep.key = b)
  paid (b : Nat) : s.intents.countP (·.rep.key = b) + s.inFlight.countP (·.1.key = b) +
    s.paid.countP (·.1.key = b) = ((s.history b).map (·.served)).getD 0
  conserved {b : Nat} {batch : Batch} : s.batches[b]? = some batch →
    (batch.original : Multiset BlindedCredit) =
      (batch.stack.credits : Multiset BlindedCredit) + creditsFrom b s.inFlight +
        creditsFrom b s.paid

theorem history_of_getElem? (hb : s.batches[b]? = some batch) :
    s.history b = some batch.toBatchHistory := by
  rw [history, hb]
  rfl

theorem creditsFrom_eq_nil {l : List (Rep Nat × List BlindedCredit)}
    (h : l.countP (·.1.key = b) = 0) : creditsFrom b l = [] := by
  rw [creditsFrom, List.filter_eq_nil_iff.2 (List.countP_eq_zero.1 h), List.flatMap_nil]

theorem Accounts.update {batch' : Batch} {new : List (Rep Nat)} (hu : Update s s' b batch' new)
    (ha : Accounts s) {k : Nat}
    (hintents : ∀ j, s'.intents.countP (·.rep.key = j) =
      s.intents.countP (·.rep.key = j) + if j = b then k else 0)
    (hserved : batch'.served = ((s.history b).map (·.served)).getD 0 + k)
    (hwaiting : batch'.stack.credits.length + batch'.served =
      batch'.original.length + s.intents.countP (·.rep.key = b) + k)
    (hconserved : (batch'.original : Multiset BlindedCredit) =
      (batch'.stack.credits : Multiset BlindedCredit) + creditsFrom b s.inFlight +
        creditsFrom b s.paid) : Accounts s' where
  waiting {j batch} hj := by
    rw [hu.batches] at hj
    rw [hintents]
    split at hj
    · next heq =>
      cases hj
      rw [heq, if_pos rfl, hwaiting, add_assoc]
    · next hne => rw [if_neg hne, ha.waiting hj, add_zero]
  paid j := by
    have hj := ha.paid j
    rw [hintents, hu.inFlight, hu.paid, hu.history]
    split
    · next heq =>
      subst heq
      rw [Option.map_some, Option.getD_some, hserved, ← hj]
      omega
    · rw [← hj]
      omega
  conserved {j batch} hj := by
    rw [hu.batches] at hj
    rw [hu.inFlight, hu.paid]
    split at hj
    · next heq =>
      cases hj
      rw [heq, hconserved]
    · exact ha.conserved hj

/-! ## `CreateIntents` -/

/-- What holds between the steps; `cur` is the batch that `CreateIntents` is serving. -/
structure Inv (s : Prefetch) (cur : Option Nat) : Prop where
  flow : Flow s cur
  accounts : Accounts s
  collected : Collected s

theorem history_length (s : Prefetch) : s.history s.batches.length = none := by
  rw [history, List.getElem?_eq_none le_rfl]
  rfl

theorem Inv.addBatch (h : Inv s none) (stack : CreditStack) :
    Inv (s.addBatch stack) (some s.batches.length) := by
  have hnone := history_length s
  have hu : Update s (s.addBatch stack) s.batches.length { stack, original := stack.credits } [] :=
    { batches := Entries.getElem?_concat s.batches _, underway := (zero_add _).symm
      key := fun rep hrep => absurd hrep List.not_mem_nil, arrived := rfl, resultsByBatch := rfl
      sent := rfl, inFlight := rfl, paid := rfl }
  have hcount := h.accounts.paid s.batches.length
  rw [hnone, Option.map_none, Option.getD_none] at hcount
  refine ⟨h.flow.update hu ?_ (Nat.zero_le _) (.inl rfl) fun _ => rfl,
    h.accounts.update hu (k := 0) (fun j => ?_) ?_ ?_ ?_, h.collected.update hu ?_ ?_⟩
  · rw [created, hnone]
    rfl
  · rw [ite_self, add_zero]
    rfl
  · rw [hnone]
    rfl
  · simp only
    omega
  · rw [creditsFrom_eq_nil (l := s.inFlight) (by omega),
      creditsFrom_eq_nil (l := s.paid) (by omega), Multiset.coe_nil, add_zero, add_zero]
  · exact not_done_of_none hnone
  · have hhistory := hu.history s.batches.length
    rw [if_pos rfl] at hhistory
    exact not_done_of_open hhistory rfl

/-- What `CreateIntents` knows of the batch that it is serving. -/
structure Current (s : Prefetch) (b : Nat) (batch : Batch) : Prop where
  inv : Inv s (some b)
  lookup : s.batches[b]? = some batch
  opened : batch.closed = false

theorem Current.history (h : Current s b batch) : s.history b = some batch.toBatchHistory :=
  history_of_getElem? h.lookup

theorem Current.created (h : Current s b batch) : s.created b = batch.created b := by
  rw [Prefetch.created, h.history]
  rfl

theorem Current.not_done (h : Current s b batch) : ¬ s.Done b :=
  not_done_of_open h.history h.opened

theorem Current.serve (h : Current s b batch) (hlt : batch.served < batch.original.length)
    {rep : Rep Nat}
    (hrep : rep = ⟨b, batch.served, (batch.served : Int) = batch.original.length - 1⟩)
    (amount : Value) :
    Current { s with
      intents := s.intents ++ [⟨rep, amount⟩]
      batches := s.batches.modify b fun batch => { batch with served := batch.served + 1 } }
      b { batch with served := batch.served + 1 } := by
  have hu : Update s { s with
      intents := s.intents ++ [⟨rep, amount⟩]
      batches := s.batches.modify b fun batch => { batch with served := batch.served + 1 } }
      b { batch with served := batch.served + 1 } [rep] :=
    { batches := Entries.getElem?_modify h.lookup _
      underway := by
        simp only [underway, List.map_append, ← Multiset.coe_add, List.map_singleton,
          Multiset.coe_singleton]
        abel
      key := fun r hr => by rw [List.mem_singleton.1 hr, hrep]
      arrived := rfl, resultsByBatch := rfl, sent := rfl, inFlight := rfl, paid := rfl }
  have hwaiting := h.inv.accounts.waiting h.lookup
  have hconserved := h.inv.accounts.conserved h.lookup
  refine ⟨⟨h.inv.flow.update hu ?_ hlt (.inr rfl) fun _ => rfl,
    h.inv.accounts.update hu (k := 1) (fun j => ?_) ?_ ?_ ?_,
    h.inv.collected.update hu h.not_done ?_⟩, ?_, h.opened⟩
  · rw [h.created, hrep]
    exact BatchHistory.created_served h.opened
  · rw [List.countP_append, List.countP_singleton, hrep]
    simp [eq_comm]
  · rw [h.history]
    rfl
  · simp only
    omega
  · exact hconserved
  · have hhistory := hu.history b
    rw [if_pos rfl] at hhistory
    exact not_done_of_open hhistory h.opened
  · rw [hu.batches, if_pos rfl]

/-- The batch is closed, with a repetition that is marked as the last one. -/
theorem Current.endBatch (h : Current s b batch) {rep : Rep Nat} (hkey : rep.key = b)
    (hlast : rep.last = true → batch.Exhausted ∧ ∃ rep' ∈ s.underway, rep'.key = b)
    (hrest : rep.last = false → ¬ batch.Exhausted ∧ rep.index = batch.served)
    (creating : Creating) : Inv (s.endBatch rep creating) none := by
  have hwaiting := h.inv.accounts.waiting h.lookup
  have hconserved := h.inv.accounts.conserved h.lookup
  have hu :
      Update s (s.endBatch rep creating) b { batch with closed := true } (batch.closing b) := by
    rw [Prefetch.endBatch, hkey]
    cases hrep : rep.last with
    | true =>
      rw [if_pos rfl, BatchHistory.closing, if_pos (hlast hrep).1]
      exact { batches := Entries.getElem?_modify h.lookup _, underway := (zero_add _).symm
              key := fun r hr => absurd hr List.not_mem_nil, arrived := rfl, resultsByBatch := rfl
              sent := rfl, inFlight := rfl, paid := rfl }
    | false =>
      obtain ⟨hex, hindex⟩ := hrest hrep
      rw [if_neg Bool.false_ne_true, BatchHistory.closing, if_neg hex]
      exact
        { batches := Entries.getElem?_modify h.lookup _
          underway := by
            simp only [underway, ← Multiset.coe_add, hindex]
            abel
          key := fun r hr => by rw [List.mem_singleton.1 hr]
          arrived := rfl, resultsByBatch := rfl, sent := rfl, inFlight := rfl, paid := rfl }
  have hle := h.inv.flow.served_le h.history
  refine ⟨h.inv.flow.update hu ?_ hle (.inr rfl) fun hc => ?_,
    h.inv.accounts.update hu (k := 0) (fun j => ?_) ?_ ?_ ?_,
    h.inv.collected.update hu h.not_done ?_⟩
  · rw [h.created]
    exact BatchHistory.created_closed h.opened
  · cases hc
  · rw [ite_self, add_zero, Prefetch.endBatch]
    split <;> rfl
  · rw [h.history]
    rfl
  · exact hwaiting
  · exact hconserved
  · obtain ⟨rep', hmem, hkey'⟩ : ∃ rep' ∈ (s.endBatch rep creating).underway, rep'.key = b := by
      cases hrep : rep.last with
      | true =>
        obtain ⟨-, rep', hmem, hkey'⟩ := hlast hrep
        exact ⟨rep', hu.mem_underway.2 (.inr hmem), hkey'⟩
      | false =>
        refine ⟨⟨b, batch.served, true⟩, hu.mem_underway.2 (.inl ?_), rfl⟩
        rw [BatchHistory.closing, if_neg (hrest hrep).1]
        exact List.mem_singleton_self _
    rw [← hkey']
    exact not_done_of_mem hmem

theorem Inv.creating (h : Inv s cur) (creating : Creating) : Inv { s with creating } cur where
  flow := ⟨h.flow.reps, h.flow.served_le, h.flow.opened⟩
  accounts := ⟨h.accounts.waiting, h.accounts.paid, h.accounts.conserved⟩
  collected := ⟨h.collected.pending, h.collected.kept, h.collected.sent, h.collected.notSent⟩

/-- The batch that is being served. -/
def current : Creating → Option Nat
  | .serving rep _ => some rep.key
  | _ => none

/-- The invariant, and the batch that is being served has a credit for the next request. -/
structure Stable (s : Prefetch) : Prop where
  inv : Inv s (current s.creating)
  serving {rep : Rep Nat} {n : Int} : s.creating = .serving rep n → ∃ h,
    s.history rep.key = some h ∧ h.closed = false ∧ h.served < h.original.length ∧
      rep = ⟨rep.key, h.served, false⟩ ∧ n = h.original.length

theorem Stable.exists_current (h : Stable s) {rep : Rep Nat} {n : Int}
    (hcreating : s.creating = .serving rep n) :
    ∃ batch, Current s rep.key batch ∧ batch.served < batch.original.length ∧
      rep = ⟨rep.key, batch.served, false⟩ ∧ n = batch.original.length := by
  have hinv := h.inv
  rw [hcreating] at hinv
  obtain ⟨history, hhistory, hopen, hrest⟩ := h.serving hcreating
  obtain ⟨batch, hbatch, rfl⟩ := Option.map_eq_some_iff.1 hhistory
  exact ⟨batch, ⟨hinv, hbatch, hopen⟩, hrest⟩

theorem creating_endBatch (s : Prefetch) (rep : Rep Nat) (creating : Creating) :
    (s.endBatch rep creating).creating = creating := by
  rw [Prefetch.endBatch]
  split <;> rfl

theorem Stable.of_endBatch {rep : Rep Nat} {creating : Creating} (hnone : current creating = none)
    (h : Inv (s.endBatch rep creating) none) : Stable (s.endBatch rep creating) where
  inv := by
    rw [creating_endBatch, hnone]
    exact h
  serving {rep n} hserving := by
    rw [creating_endBatch] at hserving
    rw [hserving] at hnone
    cases hnone

theorem Current.loop (h : Current s b batch) (rep : Rep Nat) (hkey : rep.key = b) {n index : Int}
    (hn : n = batch.original.length) (hindex : index = batch.served)
    (hlast : rep.last = true → batch.Exhausted ∧ ∃ rep' ∈ s.underway, rep'.key = b)
    (hrest : rep.last = false →
      ¬ batch.Exhausted ∧ (batch.served < batch.original.length ∨ rep.index = batch.served)) :
    Stable (s.loop rep n index) := by
  have hle := h.inv.flow.served_le h.history
  rw [Prefetch.loop]
  split
  · next hlt =>
    have hopen : rep.last = false := by
      by_contra hne
      have := (hlast (Bool.eq_true_of_not_eq_false hne)).1.2
      omega
    refine ⟨?_, fun hserving => ?_⟩
    · simp only [current, hkey]
      exact h.inv.creating _
    · cases hserving
      refine ⟨batch.toBatchHistory, ?_, h.opened, by omega, ?_, hn⟩
      · simp only [hkey]
        exact h.history
      · simp only [hindex, hopen]
  · next hge =>
    refine Stable.of_endBatch rfl (h.endBatch hkey hlast (fun hopen => ?_) _)
    obtain ⟨hex, hlt | hindex⟩ := hrest hopen
    · omega
    · exact ⟨hex, hindex⟩

theorem Inv.current_addBatch (h : Inv s none) (stack : CreditStack) :
    Current (s.addBatch stack) s.batches.length { stack, original := stack.credits } :=
  ⟨h.addBatch stack, by rw [Prefetch.addBatch, List.getElem?_concat_length], rfl⟩

theorem Current.stop {rep : Rep Nat} (h : Current s rep.key batch)
    (hlt : batch.served < batch.original.length) (hrep : rep = ⟨rep.key, batch.served, false⟩)
    {creating : Creating} (hnone : current creating = none) :
    Stable (s.endBatch rep creating) := by
  refine Stable.of_endBatch hnone (h.endBatch rfl (fun hlast => ?_) (fun _ => ?_) _)
  · rw [hrep] at hlast
    cases hlast
  · exact ⟨fun hex => absurd hex.2 hlt.ne, by rw [hrep]⟩

theorem Stable.createStep (h : Stable s) {a : CreateAct} (hs : s.createStep a = some s') :
    Stable s' := by
  have hinv := h.inv
  unfold Prefetch.createStep at hs
  split at hs
  case h_1 stack hcreating =>
    rw [hcreating] at hinv
    cases hs
    refine (hinv.current_addBatch stack).loop _ rfl rfl rfl (fun hlast => ?_) fun _ => ?_
    · cases hlast
    · exact ⟨fun hex => absurd hex.1 (Nat.lt_irrefl 0), .inr rfl⟩
  case h_2 rep n amount hcreating =>
    obtain ⟨batch, hcur, hlt, hrep, rfl⟩ := h.exists_current hcreating
    obtain ⟨b, index, last⟩ := rep
    simp only [Rep.mk.injEq, true_and] at hrep
    obtain ⟨rfl, -⟩ := hrep
    cases hs
    refine (hcur.serve hlt rfl amount).loop
      ⟨b, batch.served, (batch.served : Int) = batch.original.length - 1⟩ rfl rfl
      (Nat.cast_succ _).symm (fun hlast => ?_) fun hlast => ?_
    · have hindex := of_decide_eq_true hlast
      refine ⟨⟨Nat.succ_pos _, ?_⟩,
        ⟨b, batch.served, (batch.served : Int) = batch.original.length - 1⟩, ?_, rfl⟩
      · simp only
        omega
      · simp [underway]
    · have hindex := of_decide_eq_false hlast
      refine ⟨fun hex => ?_, .inl ?_⟩
      · have := hex.2
        simp only at this
        omega
      · simp only
        omega
  case h_3 rep n hcreating =>
    obtain ⟨batch, hcur, hlt, hrep, -⟩ := h.exists_current hcreating
    cases hs
    exact hcur.stop hlt hrep rfl
  case h_4 rep n hcreating =>
    obtain ⟨batch, hcur, hlt, hrep, -⟩ := h.exists_current hcreating
    cases hs
    exact hcur.stop hlt hrep rfl
  case h_5 stack hcreating =>
    rw [hcreating] at hinv
    cases hs
    refine Stable.of_endBatch rfl ((hinv.current_addBatch stack).endBatch rfl (fun hlast => ?_)
      (fun _ => ?_) _)
    · cases hlast
    · exact ⟨fun hex => absurd hex.1 (Nat.lt_irrefl 0), rfl⟩
  case h_6 hcreating =>
    rw [hcreating] at hinv
    cases hs
    exact ⟨hinv.creating _, fun hserving => by cases hserving⟩
  case h_7 hcreating =>
    rw [hcreating] at hinv
    cases hs
    exact ⟨hinv.creating _, fun hserving => by cases hserving⟩
  case h_8 => cases hs

/-! ## The transfers -/

theorem creditsFrom_concat (l : List (Rep Nat × List BlindedCredit)) (rep : Rep Nat)
    (credits : List BlindedCredit) :
    creditsFrom b (l ++ [(rep, credits)]) =
      creditsFrom b l ++ if rep.key = b then credits else [] := by
  rw [creditsFrom, List.filter_append, List.flatMap_append, creditsFrom]
  by_cases hkey : rep.key = b
  · rw [if_pos hkey]
    simp [hkey]
  · rw [if_neg hkey]
    simp [hkey]

theorem creditsFrom_eraseIdx {l : List (Rep Nat × List BlindedCredit)} {j : Nat} {rep : Rep Nat}
    {credits : List BlindedCredit} (h : l[j]? = some (rep, credits)) :
    (creditsFrom b l : Multiset BlindedCredit) =
      (if rep.key = b then credits else [] : List BlindedCredit) +
        creditsFrom b (l.eraseIdx j) := by
  obtain ⟨hj, hget⟩ := List.getElem?_eq_some_iff.1 h
  have hperm : (creditsFrom b l).Perm (creditsFrom b ((rep, credits) :: l.eraseIdx j)) := by
    rw [← hget]
    exact ((List.getElem_cons_eraseIdx_perm hj).symm.filter _).flatMap_right _
  rw [Multiset.coe_eq_coe.2 hperm, creditsFrom, List.filter_cons]
  by_cases hkey : rep.key = b
  · simp [hkey, creditsFrom]
  · simp [hkey, creditsFrom]

/-- The step moves repetitions and credits and changes nothing else. -/
structure Move (s s' : Prefetch) : Prop where
  creating : s'.creating = s.creating
  history (j : Nat) : s'.history j = s.history j
  underway : (s'.underway : Multiset (Rep Nat)) = s.underway
  arrived : s'.arrived = s.arrived
  resultsByBatch : s'.resultsByBatch = s.resultsByBatch
  sent : s'.sent = s.sent

theorem Flow.congr (hf : Flow s cur) (hhistory : ∀ j, s'.history j = s.history j)
    (hreps : s'.reps = s.reps) : Flow s' cur where
  reps j := by
    rw [hreps, hf.reps, created, created, hhistory]
  served_le {j h} hj := hf.served_le (hhistory j ▸ hj)
  opened {j h} hj := hf.opened (hhistory j ▸ hj)

theorem Collected.move (hm : Move s s') (hc : Collected s) : Collected s' := by
  have hall : ∀ j h, s'.AllArrived j h ↔ s.AllArrived j h := by
    intro j
    refine allArrived_congr fun rep _ => ?_
    rw [← Multiset.mem_coe, hm.underway, Multiset.mem_coe]
  refine hc.congr hm.arrived hm.resultsByBatch hm.sent (fun j => ?_) fun j => ?_
  · simp only [Done, hm.history, hall]
  · simp only [Due, hm.history, hall]

theorem Stable.move (hm : Move s s') (h : Stable s) (ha : Accounts s') : Stable s' where
  inv := by
    rw [hm.creating]
    refine ⟨h.inv.flow.congr hm.history ?_, ha, h.inv.collected.move hm⟩
    rw [reps, reps, hm.underway, hm.arrived]
  serving {rep n} hserving := by
    rw [hm.creating] at hserving
    rw [hm.history]
    exact h.serving hserving

theorem withdraw_cases {j : Nat} (hs : s.transferStep (.withdraw j) = some s') :
    ∃ intent batch credit stack, s.intents[j]? = some intent ∧
      s.batches[intent.rep.key]? = some batch ∧ batch.stack.credits = credit :: stack.credits ∧
      s' = { s with
        intents := s.intents.eraseIdx j
        batches := s.batches.set intent.rep.key { batch with stack }
        inFlight := s.inFlight ++ [(intent.rep, [credit])] } := by
  simp only [Prefetch.transferStep, Option.bind_eq_bind, Option.bind_eq_some_iff] at hs
  obtain ⟨intent, hintent, batch, hbatch, hs⟩ := hs
  split at hs
  · next credits gain stack hwithdraw =>
    obtain ⟨credit, hstack, rfl, -⟩ := CreditStack.withdraw_one hwithdraw
    exact ⟨intent, batch, credit, stack, hintent, hbatch, hstack, (Option.some.inj hs).symm⟩
  · cases hs

theorem move_withdraw {j : Nat} (hs : s.transferStep (.withdraw j) = some s') : Move s s' := by
  obtain ⟨intent, batch, credit, stack, hintent, hbatch, -, rfl⟩ := withdraw_cases hs
  refine ⟨rfl, fun i => ?_, ?_, rfl, rfl, rfl⟩
  · rw [history, Entries.getElem?_set hbatch, history]
    split
    · next hkey =>
      rw [hkey, hbatch]
      rfl
    · rfl
  · simp only [underway, List.map_append, ← Multiset.coe_add, List.map_singleton,
      Multiset.coe_singleton, Bag.coe_map_eraseIdx hintent]
    abel

theorem Accounts.withdraw (ha : Accounts s) {j : Nat}
    (hs : s.transferStep (.withdraw j) = some s') : Accounts s' := by
  have hhistory := (move_withdraw hs).history
  obtain ⟨intent, batch, credit, stack, hintent, hbatch, hstack, rfl⟩ := withdraw_cases hs
  have hbatches := Entries.getElem?_set hbatch { batch with stack }
  refine ⟨fun {i batch'} hi => ?_, fun i => ?_, fun {i batch'} hi => ?_⟩
  · have hcount := Bag.countP_eraseIdx hintent fun intent => intent.rep.key = i
    rw [hbatches] at hi
    split at hi
    · next hkey =>
      cases hi
      have hwaiting := ha.waiting hbatch
      rw [hstack, List.length_cons, ← hkey, hcount, if_pos (decide_eq_true hkey.symm)] at hwaiting
      simp only
      omega
    · next hkey =>
      have hwaiting := ha.waiting hi
      rw [hcount, if_neg (by simpa using Ne.symm hkey)] at hwaiting
      simp only
      omega
  · have hcount := Bag.countP_eraseIdx hintent fun intent => intent.rep.key = i
    rw [hhistory, ← ha.paid i, hcount, List.countP_append, List.countP_singleton]
    simp only
    omega
  · rw [hbatches] at hi
    rw [creditsFrom_concat]
    split at hi
    · next hkey =>
      cases hi
      have hconserved := ha.conserved hbatch
      rw [hstack, ← Multiset.cons_coe, ← Multiset.singleton_add] at hconserved
      rw [if_pos hkey.symm, hkey, hconserved, ← Multiset.coe_add, Multiset.coe_singleton]
      abel
    · next hkey =>
      rw [if_neg (Ne.symm hkey), List.append_nil]
      exact ha.conserved hi

theorem deposit_cases {j : Nat} {transferID : Bytes}
    (hs : s.transferStep (.deposit j transferID) = some s') :
    ∃ rep credits, s.inFlight[j]? = some (rep, credits) ∧
      s' = { s with
        inFlight := s.inFlight.eraseIdx j
        paid := s.paid ++ [(rep, credits)]
        transfers := s.transfers ++ [rep] } := by
  simp only [Prefetch.transferStep, Option.bind_eq_bind, Option.bind_eq_some_iff] at hs
  obtain ⟨⟨rep, credits⟩, hflight, hs⟩ := hs
  simp only at hs
  split at hs
  · next stack hdeposit =>
    rw [CreditStack.deposit_eq_ok hdeposit] at hs
    exact ⟨rep, credits, hflight, (Option.some.inj hs).symm⟩
  · cases hs

theorem move_deposit {j : Nat} {transferID : Bytes}
    (hs : s.transferStep (.deposit j transferID) = some s') : Move s s' := by
  obtain ⟨rep, credits, hflight, rfl⟩ := deposit_cases hs
  refine ⟨rfl, fun i => rfl, ?_, rfl, rfl, rfl⟩
  simp only [underway, ← Multiset.coe_add, Multiset.coe_singleton, Bag.coe_map_eraseIdx hflight]
  abel

theorem Accounts.deposit (ha : Accounts s) {j : Nat} {transferID : Bytes}
    (hs : s.transferStep (.deposit j transferID) = some s') : Accounts s' := by
  obtain ⟨rep, credits, hflight, rfl⟩ := deposit_cases hs
  refine ⟨fun hi => ha.waiting hi, fun i => ?_, fun {i batch} hi => ?_⟩
  · have hcount := Bag.countP_eraseIdx hflight fun transfer => transfer.1.key = i
    have hpaid := ha.paid i
    rw [hcount] at hpaid
    rw [List.countP_append, List.countP_singleton]
    refine Eq.trans ?_ hpaid
    simp only
    omega
  · rw [ha.conserved hi, creditsFrom_eraseIdx hflight, creditsFrom_concat, ← Multiset.coe_add]
    abel

theorem Stable.transferStep (h : Stable s) {a : TransferAct} (hs : s.transferStep a = some s') :
    Stable s' := by
  cases a with
  | withdraw j => exact h.move (move_withdraw hs) (h.inv.accounts.withdraw hs)
  | deposit j transferID => exact h.move (move_deposit hs) (h.inv.accounts.deposit hs)

/-! ## `DedupeBatches` -/

/-- When all transfers of a batch have arrived, each request it served was paid with a credit. -/
theorem Accounts.of_allArrived (ha : Accounts s) (hb : s.batches[b]? = some batch)
    (harrived : s.AllArrived b batch.toBatchHistory) :
    s.paid.countP (·.1.key = b) = batch.served ∧
      batch.stack.credits.length + batch.served = batch.original.length := by
  have hall := harrived.2
  simp only [underway, List.mem_append, or_imp, forall_and] at hall
  obtain ⟨⟨⟨hintents, hflight⟩, -⟩, -⟩ := hall
  have hintents : s.intents.countP (·.rep.key = b) = 0 := by
    rw [List.countP_eq_zero]
    intro intent hintent
    simpa using hintents _ (List.mem_map_of_mem hintent)
  have hflight : s.inFlight.countP (·.1.key = b) = 0 := by
    rw [List.countP_eq_zero]
    intro transfer htransfer
    simpa using hflight _ (List.mem_map_of_mem htransfer)
  have hpaid := ha.paid b
  rw [history_of_getElem? hb, hintents, hflight, Option.map_some, Option.getD_some] at hpaid
  have hwaiting := ha.waiting hb
  omega

theorem Stable.wf (h : Stable s) {history : BatchHistory} (hb : s.history b = some history) :
    history.WF := by
  refine h.inv.flow.wf hb fun hcur => ?_
  cases hcreating : s.creating with
  | serving rep n =>
    rw [hcreating] at hcur
    cases hcur
    obtain ⟨history', hb', -, hlt, -⟩ := h.serving hcreating
    rw [hb, Option.some.injEq] at hb'
    rwa [hb']
  | _ =>
    rw [hcreating] at hcur
    cases hcur

/-- The repetition `rep` is taken out of a channel. -/
structure Take (s t : Prefetch) (rep : Rep Nat) : Prop where
  state : t = { s with transfers := t.transfers, remainingBatchReps := t.remainingBatchReps }
  underway : (s.underway : Multiset (Rep Nat)) = {rep} + t.underway

section
variable {t : Prefetch} {rep : Rep Nat} (ht : Take s t rep)
include ht

theorem Take.history (j : Nat) : (t.dedupe rep).history j = s.history j := by
  rw [ht.state]
  rfl

theorem Take.arrived : (t.dedupe rep).arrived = s.arrived ++ [rep] := by
  rw [ht.state]
  rfl

theorem Take.mem_underway {r : Rep Nat} : r ∈ s.underway ↔ r = rep ∨ r ∈ t.underway := by
  rw [← Multiset.mem_coe, ht.underway, Multiset.mem_add, Multiset.mem_singleton, Multiset.mem_coe]

theorem Take.reps : (t.dedupe rep).reps = s.reps := by
  rw [Prefetch.reps, Prefetch.reps, ht.underway, ht.arrived, Bag.coe_append_singleton]
  show (t.underway : Multiset (Rep Nat)) + _ = _
  abel

/-- With a repetition that arrives, the results of its batch are complete exactly if all of its
repetitions have arrived. -/
theorem Stable.complete_iff (h : Stable s) :
    (((s.resultsByBatch.lookup rep.key).getD {}).add rep).complete = true ↔
      (t.dedupe rep).Done rep.key := by
  have hmem : rep ∈ s.underway := ht.mem_underway.2 (.inl rfl)
  have hreps : rep ∈ s.reps := Multiset.mem_add.2 (.inl hmem)
  obtain ⟨history, hb⟩ := h.inv.flow.exists_history hreps
  have hwf := h.wf hb
  have hb' := (ht.history rep.key).trans hb
  have hunderway : (t.dedupe rep).underway = t.underway := rfl
  have hgroup : (t.underway.filter (·.key = rep.key) : Multiset (Rep Nat)) +
      (s.arrived.filter (·.key = rep.key) ++ [rep] : List (Rep Nat)) = history.created rep.key := by
    have hreps := h.inv.flow.reps rep.key
    rw [Prefetch.reps, ht.underway, created, hb, Option.map_some, Option.getD_some,
      Multiset.filter_add, Multiset.filter_add, Multiset.filter_singleton, if_pos rfl,
      Multiset.filter_coe, Multiset.filter_coe] at hreps
    rw [← hreps, Bag.coe_append_singleton]
    abel
  have hsub : (s.arrived.filter (·.key = rep.key) ++ [rep]).Subperm (history.created rep.key) :=
    Multiset.coe_le.1 (hgroup ▸ Multiset.le_add_left _ _)
  have hlen := congrArg Multiset.card hgroup
  rw [Multiset.card_add, Multiset.coe_card, Multiset.coe_card, Multiset.coe_card] at hlen
  rw [h.inv.collected.pending (not_done_of_mem hmem), ← RepResults.of_append_singleton,
    (BatchHistory.isGroup_created hwf).complete_iff hsub, BatchHistory.exists_last_created hwf,
    done_iff hb', AllArrived, hunderway]
  refine and_congr_right fun _ => ?_
  rw [← hlen, eq_comm, Nat.add_eq_right, List.length_eq_zero_iff, List.filter_eq_nil_iff]
  simp

theorem Accounts.dedupe (ha : Accounts s) : Accounts (t.dedupe rep) := by
  rw [ht.state]
  exact ⟨ha.waiting, ha.paid, ha.conserved⟩

theorem Take.done_iff_of_ne {j : Nat} (hj : j ≠ rep.key) :
    ((t.dedupe rep).Done j ↔ s.Done j) ∧ ((t.dedupe rep).Due j ↔ s.Due j) := by
  have hall : ∀ h, (t.dedupe rep).AllArrived j h ↔ s.AllArrived j h := by
    refine allArrived_congr fun r hr => ?_
    have hne : r ≠ rep := fun heq => hj (hr ▸ heq ▸ rfl)
    rw [ht.mem_underway, or_iff_right hne]
    rfl
  simp only [Done, Due, ht.history, hall, and_self]

theorem Take.filter_arrived (j : Nat) :
    (t.dedupe rep).arrived.filter (·.key = j) =
      s.arrived.filter (·.key = j) ++ if rep.key = j then [rep] else [] := by
  rw [ht.arrived, List.filter_append]
  by_cases hj : rep.key = j
  · simp [hj]
  · simp [hj]

/-- A batch that is complete has credits left if it has served fewer requests than it had. -/
theorem Stable.due_iff (h : Stable s) :
    (t.dedupe rep).Due rep.key ↔
      (((s.resultsByBatch.lookup rep.key).getD {}).add rep).complete = true ∧
        0 < s.numCredits rep.key := by
  have hreps : rep ∈ s.reps := Multiset.mem_add.2 (.inl (ht.mem_underway.2 (.inl rfl)))
  obtain ⟨history, hb⟩ := h.inv.flow.exists_history hreps
  obtain ⟨batch, hbatch, rfl⟩ := Option.map_eq_some_iff.1 hb
  have hb' := (ht.history rep.key).trans hb
  have hbatch' : (t.dedupe rep).batches[rep.key]? = some batch := by
    rw [← hbatch, ht.state]
    rfl
  rw [h.complete_iff ht, Prefetch.due_iff hb', done_iff hb']
  refine and_congr_right fun hall => ?_
  have hleft := ((h.inv.accounts.dedupe ht).of_allArrived hbatch' hall).2
  rw [numCredits, hbatch, Option.map_some, Option.getD_some, CreditStack.numCredits]
  omega

theorem Collected.dedupe (h : Stable s) : Collected (t.dedupe rep) := by
  have hnot := not_done_of_mem (ht.mem_underway.2 (.inl rfl))
  have hc := h.inv.collected
  have hlookup : ∀ j, (t.dedupe rep).resultsByBatch.lookup j =
      (collect s.resultsByBatch rep).1.lookup j := by
    intro j
    rw [ht.state]
    rfl
  have hsent : (t.dedupe rep).sent =
      if (collect s.resultsByBatch rep).2 = true ∧ 0 < s.numCredits rep.key then
        s.sent ++ [rep.key]
      else s.sent := by
    rw [ht.state]
    rfl
  have hdue : ((collect s.resultsByBatch rep).2 = true ∧ 0 < s.numCredits rep.key) ↔
      (t.dedupe rep).Due rep.key := by
    rw [snd_collect, h.due_iff ht]
  have hcount : ∀ j, j ≠ rep.key → (t.dedupe rep).sent.count j = s.sent.count j := by
    intro j hj
    rw [hsent]
    split
    · rw [List.count_append, List.count_singleton, if_neg (by simpa using Ne.symm hj), add_zero]
    · rfl
  refine ⟨fun {j} hj => ?_, fun {j g} hg => ?_, fun {j} hj => ?_, fun {j} hj => ?_⟩
  · rw [hlookup, lookup_collect, ht.filter_arrived]
    by_cases hkey : j = rep.key
    · subst hkey
      rw [if_pos rfl, if_neg (mt (h.complete_iff ht).1 hj), Option.getD_some, if_pos rfl,
        RepResults.of_append_singleton, hc.pending hnot]
    · rw [if_neg hkey, if_neg (Ne.symm hkey), List.append_nil]
      exact hc.pending (mt (ht.done_iff_of_ne hkey).1.2 hj)
  · rw [hlookup, lookup_collect] at hg
    by_cases hkey : j = rep.key
    · subst hkey
      rw [if_pos rfl, Option.ite_none_left_eq_some] at hg
      refine ⟨mt (h.complete_iff ht).2 hg.1, rep, ?_, rfl⟩
      rw [ht.arrived]
      exact List.mem_append_right _ (List.mem_singleton_self rep)
    · rw [if_neg hkey] at hg
      obtain ⟨hdone, r, hr, hrkey⟩ := hc.kept hg
      refine ⟨mt (ht.done_iff_of_ne hkey).1.1 hdone, r, ?_, hrkey⟩
      rw [ht.arrived]
      exact List.mem_append_left _ hr
  · by_cases hkey : j = rep.key
    · subst hkey
      rw [hsent, if_pos (hdue.2 hj), List.count_append, hc.notSent (mt Due.done hnot)]
      simp
    · rw [hcount j hkey]
      exact hc.sent ((ht.done_iff_of_ne hkey).2.1 hj)
  · by_cases hkey : j = rep.key
    · subst hkey
      rw [hsent, if_neg (mt hdue.1 hj)]
      exact hc.notSent (mt Due.done hnot)
    · rw [hcount j hkey]
      exact hc.notSent (mt (ht.done_iff_of_ne hkey).2.2 hj)

theorem Stable.dedupe (h : Stable s) : Stable (t.dedupe rep) := by
  have hcreating : (t.dedupe rep).creating = s.creating := by
    rw [ht.state]
    rfl
  refine ⟨?_, fun {r n} hserving => ?_⟩
  · rw [hcreating]
    exact ⟨h.inv.flow.congr ht.history ht.reps, h.inv.accounts.dedupe ht, Collected.dedupe ht h⟩
  · rw [hcreating] at hserving
    rw [ht.history]
    exact h.serving hserving

end

theorem Stable.keys_eq_nil (h : Stable s) (hreturned : s.creating = .returned)
    (hunder : s.underway = []) : s.resultsByBatch.keys = [] := by
  refine List.eq_nil_iff_forall_not_mem.2 fun b hb => ?_
  obtain ⟨g, hg⟩ := Option.isSome_iff_exists.1 (AList.lookup_isSome.2 (AList.mem_keys.2 hb))
  obtain ⟨hnot, rep, hrep, rfl⟩ := h.inv.collected.kept hg
  obtain ⟨history, hhistory⟩ := h.inv.flow.exists_history (Multiset.mem_add.2 (.inr hrep))
  have hclosed : history.closed = true := by
    by_contra hopen
    have hcur := h.inv.flow.opened hhistory (Bool.eq_false_of_not_eq_true hopen)
    rw [hreturned] at hcur
    cases hcur
  refine hnot ((done_iff hhistory).2 ⟨hclosed, fun r hr => ?_⟩)
  rw [hunder] at hr
  cases hr

theorem Stable.dedupeStep (h : Stable s) {a : DedupeAct} (hs : s.dedupeStep a = some s') :
    Stable s' := by
  cases a with
  | transfer j | remaining j =>
    simp only [Prefetch.dedupeStep, Option.bind_eq_bind, Option.bind_eq_some_iff, Option.pure_def,
      Option.some.injEq] at hs
    obtain ⟨-, -, rep, hrep, rfl⟩ := hs
    refine h.dedupe ⟨rfl, ?_⟩
    simp only [underway, ← Multiset.coe_add, Bag.coe_eraseIdx hrep]
    abel
  | closed order =>
    rw [Prefetch.dedupeStep] at hs
    split at hs
    · next hclosed =>
      obtain ⟨-, hreturned, hunder, hperm⟩ := hclosed
      rw [h.keys_eq_nil hreturned hunder] at hperm
      rw [hperm.eq_nil, List.filter_nil, List.append_nil] at hs
      cases hs
      exact
        { inv :=
            { flow := ⟨h.inv.flow.reps, h.inv.flow.served_le, h.inv.flow.opened⟩
              accounts := ⟨h.inv.accounts.waiting, h.inv.accounts.paid, h.inv.accounts.conserved⟩
              collected := ⟨h.inv.collected.pending, h.inv.collected.kept, h.inv.collected.sent,
                h.inv.collected.notSent⟩ }
          serving := h.serving }
    · cases hs

/-! ## Runs -/

theorem stable_init : Stable {} where
  inv :=
    { flow := ⟨fun b => rfl, fun hb => (by cases hb), fun hb => by cases hb⟩
      accounts := ⟨fun hb => (by cases hb), fun b => rfl, fun hb => by cases hb⟩
      collected :=
        { pending := fun _ => rfl
          kept := fun hg => by cases hg
          sent := fun ⟨h, hb, _⟩ => by cases hb
          notSent := fun _ => rfl } }
  serving := fun hserving => by cases hserving

theorem Stable.next (h : Stable s) {a : PrefetchAct} (he : s.Enabled a) : Stable (s.next a) := by
  obtain ⟨s', hs⟩ := Option.isSome_iff_exists.1 he
  rw [Prefetch.next, hs, Option.getD_some]
  cases a with
  | create a => exact h.createStep hs
  | transfer a => exact h.transferStep hs
  | dedupe a => exact h.dedupeStep hs

theorem Stable.safe (h : Stable s) : Safe s := by
  intro b batch hb
  have hhistory := history_of_getElem? hb
  refine ⟨h.inv.flow.served_le hhistory, ?_, fun harrived => ?_, fun harrived => ?_, ?_⟩
  · split
    · next hdue => exact h.inv.collected.sent ((Prefetch.due_iff hhistory).2 hdue)
    · next hdue => exact h.inv.collected.notSent (mt (Prefetch.due_iff hhistory).1 hdue)
  · exact (h.inv.accounts.of_allArrived hb harrived).1
  · have := (h.inv.accounts.of_allArrived hb harrived).2
    omega
  · have hconserved := h.inv.accounts.conserved hb
    rwa [Multiset.coe_add, Multiset.coe_add, Multiset.coe_eq_coe] at hconserved

theorem prefetch_releases_once (acts : List PrefetchAct)
    (h : Trace.Along Prefetch.next Enabled {} acts) : Trace.Always Prefetch.next Safe {} acts :=
  (Trace.always_of_step (fun _ _ hs he => hs.next he) stable_init h).mono fun _ hs => hs.safe

/-- A batch of credits that differ in their timestamps. -/
def exampleBatch (value : Value) (n : Nat) : CreditStack where
  maxCredits := 0
  credits := (List.range n).map fun i => ⟨value, ⟨i, [], false⟩, []⟩
  creditAmount := value

/-- A batch with two credits expires after one request, and its closing repetition arrives before
the transfer; the only credit of another batch is used. -/
theorem prefetch_releases_once_two :
    let five : Value := ⟨false, 5, by decide⟩
    let acts : List PrefetchAct :=
      [.create (.receive (exampleBatch five 2)), .create (.request five), .create .expire,
        .dedupe (.remaining 0), .create (.receive (exampleBatch five 1)), .create (.request five),
        .transfer (.withdraw 1), .transfer (.withdraw 0), .transfer (.deposit 1 [1]),
        .dedupe (.transfer 0), .transfer (.deposit 0 [2]), .dedupe (.transfer 0),
        .create .batchesClosed, .dedupe (.closed [])]
    Trace.Along Prefetch.next Enabled {} acts ∧ (acts.foldl Prefetch.next {}).sent = [0] ∧
      Trace.Always Prefetch.next Safe {} acts := by
  exact ⟨by decide, by decide, prefetch_releases_once _ (by decide)⟩

end Wallet.Prefetch
