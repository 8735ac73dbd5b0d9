import Mathlib.Logic.Relation
import Mathlib.Logic.Function.Basic

/-!
# Programs of calls

`Prog E R α` is a sequential program that performs calls `e : E`, gets a reply in `R e` for each
of them and returns a value of `α`. It says nothing about what a call does; that is given by

* a handler `h`, which answers every call from a state (`Prog.run`: one program on its own), or
* a relation `H`, which says what a call of thread `i` may do to a shared state (`Pool.Step`: any
  number of programs, interleaved call by call).

`Prog.Holds G p Q l` is the weakest precondition of `p` over the events `l` it has seen so far:
every call of `p` is allowed by the guard `G`, whatever the replies, and every return satisfies
`Q`. `Pool.guarded` carries it to pools: in every run, every call of every thread is allowed by
`G` over the events of that thread alone.
-/

/-- Programs that perform calls `e : E` with replies in `R e`. -/
inductive Prog (E : Type) (R : E → Type) (α : Type) : Type where
  | ret (a : α)
  | call (e : E) (k : R e → Prog E R α)

namespace Prog

variable {E : Type} {R : E → Type} {α β σ : Type}

def bind (p : Prog E R α) (f : α → Prog E R β) : Prog E R β :=
  match p with
  | .ret a => f a
  | .call e k => .call e fun r => (k r).bind f

instance : Monad (Prog E R) where
  pure := .ret
  bind := bind

/-- The program that performs `e` and returns its reply. -/
def perform (e : E) : Prog E R (R e) := .call e .ret

@[simp] theorem pure_eq (a : α) : (pure a : Prog E R α) = .ret a := rfl
@[simp] theorem ret_bind (a : α) (f : α → Prog E R β) : (Prog.ret a >>= f) = f a := rfl
@[simp] theorem call_bind (e : E) (k : R e → Prog E R α) (f : α → Prog E R β) :
    (Prog.call e k >>= f) = .call e fun r => k r >>= f := rfl
@[simp] theorem perform_bind (e : E) (f : R e → Prog E R β) :
    ((perform e : Prog E R (R e)) >>= f) = .call e f := rfl

/-! ## One program on its own -/

/-- Run a program with a handler that answers every call from a state. -/
def run (h : (e : E) → σ → R e × σ) : Prog E R α → σ → α × σ
  | .ret a, s => (a, s)
  | .call e k, s => run h (k (h e s).1) (h e s).2

section
variable (h : (e : E) → σ → R e × σ)

@[simp] theorem run_ret (a : α) (s : σ) : run h (.ret a : Prog E R α) s = (a, s) := rfl
@[simp] theorem run_call (e : E) (k : R e → Prog E R α) (s : σ) :
    run h (.call e k) s = run h (k (h e s).1) (h e s).2 := rfl

@[simp] theorem run_bind (p : Prog E R α) (f : α → Prog E R β) (s : σ) :
    run h (p >>= f) s = run h (f (run h p s).1) (run h p s).2 := by
  induction p generalizing s with
  | ret a => rfl
  | call e k ih => exact ih _ _

end

/-- A program returns the same from two states if a relation between them is kept by every call, and
related states answer a call in the same way. -/
theorem run_rel {τ : Type} {h : (e : E) → σ → R e × σ} {h' : (e : E) → τ → R e × τ}
    {S : σ → τ → Prop}
    (hcall : ∀ e s t, S s t → (h e s).1 = (h' e t).1 ∧ S (h e s).2 (h' e t).2)
    (p : Prog E R α) {s : σ} {t : τ} (hs : S s t) :
    (run h p s).1 = (run h' p t).1 ∧ S (run h p s).2 (run h' p t).2 := by
  induction p generalizing s t with
  | ret a => exact ⟨rfl, hs⟩
  | call e k ih =>
    obtain ⟨hreply, hs'⟩ := hcall e s t hs
    rw [run_call, run_call, ← hreply]
    exact ih _ hs'

/-! ## Weakest preconditions over the events seen -/

/-- A call and its reply. -/
abbrev Event (E : Type) (R : E → Type) : Type := Σ e : E, R e

/-- From the events `l`: every call `p` makes is allowed by `G`, every return satisfies `Q`. -/
def Holds (G : List (Event E R) → E → Prop) (Q : List (Event E R) → α → Prop) :
    Prog E R α → List (Event E R) → Prop
  | .ret a, l => Q l a
  | .call e k, l => G l e ∧ ∀ r, Holds G Q (k r) (l ++ [⟨e, r⟩])

section
variable {G : List (Event E R) → E → Prop}

theorem Holds.mono {Q Q' : List (Event E R) → α → Prop} (hQ : ∀ l a, Q l a → Q' l a) :
    ∀ {p : Prog E R α} {l : List (Event E R)}, Holds G Q p l → Holds G Q' p l
  | .ret _, _, h => hQ _ _ h
  | .call _ _, _, h => ⟨h.1, fun r => (h.2 r).mono hQ⟩

theorem Holds.bind {Q : List (Event E R) → α → Prop} {Q' : List (Event E R) → β → Prop}
    {f : α → Prog E R β} (hf : ∀ l a, Q l a → Holds G Q' (f a) l) :
    ∀ {p : Prog E R α} {l : List (Event E R)}, Holds G Q p l → Holds G Q' (p >>= f) l
  | .ret _, _, h => hf _ _ h
  | .call _ _, _, h => ⟨h.1, fun r => (h.2 r).bind hf⟩

end

end Prog

/-! ## Pools: programs interleaved over a shared state -/

namespace Pool

open Prog

variable {ι E : Type} {R : E → Type} {α σ : Type}

/-- The threads, the shared state and the calls made so far, oldest first. -/
structure State (ι E : Type) (R : E → Type) (α σ : Type) where
  progs : ι → Prog E R α
  shared : σ
  events : List (ι × Event E R)

/-- No thread has made a call yet. -/
def init (progs : ι → Prog E R α) (shared : σ) : State ι E R α σ := ⟨progs, shared, []⟩

variable [DecidableEq ι]

/-- One step: a thread makes its next call, or the environment changes the shared state. -/
inductive Step (H : ι → σ → (e : E) → R e → σ → Prop) (Env : σ → σ → Prop) :
    State ι E R α σ → State ι E R α σ → Prop
  | call {s : State ι E R α σ} (i : ι) {e : E} {k : R e → Prog E R α} (r : R e) {w : σ} :
      s.progs i = .call e k → H i s.shared e r w →
      Step H Env s ⟨Function.update s.progs i (k r), w, s.events ++ [(i, ⟨e, r⟩)]⟩
  | env {s : State ι E R α σ} {w : σ} : Env s.shared w → Step H Env s { s with shared := w }

/-- The states of the runs from `s`. -/
abbrev Reach (H : ι → σ → (e : E) → R e → σ → Prop) (Env : σ → σ → Prop) :
    State ι E R α σ → State ι E R α σ → Prop :=
  Relation.ReflTransGen (Step H Env)

/-- Let the threads of `sched` make their next calls in turn, answered by `h`. -/
def play (h : ι → (e : E) → σ → R e × σ) : List ι → State ι E R α σ → State ι E R α σ
  | [], s => s
  | i :: sched, s =>
    match s.progs i with
    | .ret _ => play h sched s
    | .call e k =>
      let (r, w) := h i e s.shared
      play h sched ⟨Function.update s.progs i (k r), w, s.events ++ [(i, ⟨e, r⟩)]⟩

theorem reach_play {H : ι → σ → (e : E) → R e → σ → Prop} {Env : σ → σ → Prop}
    {h : ι → (e : E) → σ → R e × σ} (hh : ∀ i e w, H i w e (h i e w).1 (h i e w).2)
    (sched : List ι) (s : State ι E R α σ) : Reach H Env s (play h sched s) := by
  induction sched generalizing s with
  | nil => exact .refl
  | cons i sched ih =>
    unfold play
    split
    · exact ih s
    · rename_i e k hi
      exact .head (.call i _ hi (hh i e s.shared)) (ih _)

/-- The events of thread `i`. -/
def own (i : ι) (l : List (ι × Event E R)) : List (Event E R) :=
  l.filterMap fun x => if x.1 = i then some x.2 else none

@[simp] theorem own_nil (i : ι) : own i ([] : List (ι × Event E R)) = [] := rfl

theorem own_append (i : ι) (l l' : List (ι × Event E R)) :
    own i (l ++ l') = own i l ++ own i l' := List.filterMap_append

theorem own_snoc (i j : ι) (l : List (ι × Event E R)) (x : Event E R) :
    own i (l ++ [(j, x)]) = if j = i then own i l ++ [x] else own i l := by
  rw [own_append]
  by_cases h : j = i <;> simp [own, h]

theorem mem_own {i : ι} {l : List (ι × Event E R)} {x : Event E R} :
    x ∈ own i l ↔ (i, x) ∈ l := by
  simp only [own, List.mem_filterMap]
  constructor
  · rintro ⟨⟨j, y⟩, hm, he⟩
    split at he
    · rename_i hj
      cases he
      exact (show j = i from hj) ▸ hm
    · cases he
  · exact fun h => ⟨(i, x), h, by simp⟩

theorem countP_own (i : ι) (p : Event E R → Bool) (l : List (ι × Event E R)) :
    (own i l).countP p = l.countP fun x => decide (x.1 = i) && p x.2 := by
  rw [own, List.countP_filterMap]
  refine List.countP_congr fun x _ => ?_
  by_cases h : x.1 = i <;> simp [h]

section
variable {H : ι → σ → (e : E) → R e → σ → Prop} {Env : σ → σ → Prop}

/-- What every call and every step of the environment keep, a run keeps. -/
theorem invariant {I : σ → List (ι × Event E R) → Prop}
    (hcall : ∀ i w l e r w', I w l → H i w e r w' → I w' (l ++ [(i, ⟨e, r⟩)]))
    (henv : ∀ w l w', I w l → Env w w' → I w' l) {s s' : State ι E R α σ}
    (h0 : I s.shared s.events) (h : Reach H Env s s') : I s'.shared s'.events := by
  induction h with
  | refl => exact h0
  | tail _ hstep ih =>
    cases hstep with
    | call i r _ hr => exact hcall _ _ _ _ _ _ ih hr
    | env he => exact henv _ _ _ ih he

/-- In a run of guarded programs, every call is allowed over the events of its own thread. -/
theorem guarded {G : ι → List (Event E R) → E → Prop} {Q : ι → List (Event E R) → α → Prop}
    {progs : ι → Prog E R α} (hp : ∀ i, Holds (G i) (Q i) (progs i) []) {w : σ}
    {s : State ι E R α σ} (h : Reach H Env (init progs w) s) :
    ∀ pre i x post, s.events = pre ++ (i, x) :: post → G i (own i pre) x.1 := by
  -- the invariant: what is left of each thread is guarded over the events it has seen
  suffices hinv : (∀ i, Holds (G i) (Q i) (s.progs i) (own i s.events)) ∧
      ∀ pre i x post, s.events = pre ++ (i, x) :: post → G i (own i pre) x.1 from hinv.2
  induction h with
  | refl => exact ⟨hp, fun pre i x post he => by simp [init] at he⟩
  | tail _ hstep ih =>
    obtain ⟨hprogs, hold⟩ := ih
    cases hstep with
    | env _ => exact ⟨hprogs, hold⟩
    | @call i e k r w' hi hr =>
      have hg := hprogs i
      rw [hi] at hg
      refine ⟨fun j => ?_, fun pre j x post he => ?_⟩
      · simp only [own_snoc]
        by_cases hj : j = i
        · subst hj
          simpa using hg.2 r
        · simpa [hj, Ne.symm hj, eq_comm] using hprogs j
      · -- either an event of before, or the one just made
        rcases List.eq_nil_or_concat post with rfl | ⟨post, y, rfl⟩
        · obtain ⟨rfl, hx⟩ := List.append_inj' he rfl
          simp only [List.cons.injEq, Prod.mk.injEq, and_true] at hx
          obtain ⟨rfl, rfl⟩ := hx
          exact hg.1
        · rw [List.concat_eq_append, ← List.cons_append, ← List.append_assoc] at he
          exact hold pre j x post (List.append_inj' he rfl).1

end

end Pool
