import Mathlib.Data.List.AList
import Mathlib.Logic.Function.Basic
import OpenPCC.Go.Error

/-!
# Pipelines (`work/pipeline.go`)

`runPipeline` counts for every output the steps that write to it, and starts a goroutine for each
step. When the function of a step has returned, its goroutine marks the outputs of the step as done,
one after the other in any order; the one that brings a count to zero calls the closer. A step of
the model is the return of a step function, one `refs.Add(-1)` or one call of a closer, so the
goroutines interleave in any way. An `io.Closer` is a value of `C`.
-/

namespace Work

open Go

variable {C : Type}

structure PipelineStep (C : Type) where
  id : Bytes
  outputs : AList fun _ : Bytes => C
  /-- `Func` is not nil. -/
  hasFunc : Bool := true

/-! ## Shared outputs -/

structure SharedOutput (C : Type) where
  refs : Int
  closer : C
  deriving DecidableEq

abbrev SharedOutputs (C : Type) : Type := AList fun _ : Bytes => SharedOutput C

namespace SharedOutputs

def addMany [DecidableEq C] (c : SharedOutputs C) :
    List (Σ _ : Bytes, C) → Except Err (SharedOutputs C)
  | [] => .ok c
  | ⟨id, closer⟩ :: outputs =>
    let sc := (c.lookup id).getD ⟨0, closer⟩
    if sc.closer ≠ closer then
      .error (.new "output with id %s has different io.Closer values" [.str id])
    else addMany (c.insert id { sc with refs := sc.refs + 1 }) outputs

/-- What `done` does after its `refs.Add(-1)`: it returns an error or nil, or calls the closer. -/
inductive Done (C : Type) where
  | failed (err : Err)
  | pending
  | close (closer : C)
  deriving DecidableEq

def done (c : SharedOutputs C) (id : Bytes) : Done C × SharedOutputs C :=
  match c.lookup id with
  | none => (.failed (.new "no shared closer for %s" [.str id]), c)
  | some sc =>
    let result := sc.refs - 1
    let c := c.insert id { sc with refs := result }
    if result < 0 then
      (.failed (.new "calling done without matching add on shared closer %s" [.str id]), c)
    else if result > 0 then (.pending, c)
    else (.close sc.closer, c)

end SharedOutputs

/-! ## The steps -/

/-- The checks of `RunPipeline`; `i` is the index of the first step. -/
def checkSteps [DecidableEq C] (i : Nat) (seenSteps : List Bytes) (outputs : SharedOutputs C) :
    List (PipelineStep C) → Except Err (SharedOutputs C)
  | [] => .ok outputs
  | s :: steps =>
    if s.id = [] then .error (.new "worker at index %d has an empty id" [.int i])
    else if s.id ∈ seenSteps then
      .error (.new "duplicate step id %s at index %d" [.str s.id, .int i])
    else if !s.hasFunc then
      .error (.new "step %s at index %d is missing a step function" [.str s.id, .int i])
    else
      match outputs.addMany s.outputs.entries with
      | .error e =>
        .error (.errorf "step %s at index %d has invalid outputs: %w" [.str s.id, .int i] e)
      | .ok outputs => checkSteps (i + 1) (s.id :: seenSteps) outputs steps

/-- Where the goroutine of a step is: in the step function; in `manyDone`, marking outputs or
calling a closer, with the errors of the function and of `manyDone` so far; at its end. -/
inductive Phase (C : Type) where
  | running
  | marking (todo : List Bytes) (err doneErr : Option Err)
  | closing (id : Bytes) (closer : C) (todo : List Bytes) (err doneErr : Option Err)
  | finished (err : Option Err)
  deriving DecidableEq

structure Pipeline (C : Type) where
  outputs : SharedOutputs C
  phase : Nat → Phase C := fun _ => .running
  /-- the outputs that were marked as done, by which step. This is not in the program. -/
  marks : List (Nat × Bytes) := []
  /-- the calls of closers, by which step -/
  closes : List (Nat × Bytes × C) := []

/-- `RunPipeline`. -/
def runPipeline [DecidableEq C] (steps : List (PipelineStep C)) : Except Err (Pipeline C) :=
  match checkSteps 0 [] ∅ steps with
  | .error e => .error e
  | .ok outputs => .ok { outputs }

inductive Act where
  | returns (err : Option Err)
  | marks (id : Bytes)
  | closes (err : Option Err)
  deriving DecidableEq

/-- The loop of `manyDone`. -/
def Phase.loop (todo : List Bytes) (err doneErr : Option Err) : Phase C :=
  if todo = [] then .finished (join err doneErr) else .marking todo err doneErr

namespace Pipeline

variable (steps : List (PipelineStep C)) (p : Pipeline C)

/-- The goroutine of the step `i`. -/
def step : Nat × Act → Option (Pipeline C)
  | (i, .returns err) =>
    match steps[i]?, p.phase i with
    | some s, .running =>
      let err := err.map (.errorf "step %s failed: %w" [.str s.id])
      some { p with phase := Function.update p.phase i (.loop s.outputs.keys err none) }
    | _, _ => none
  | (i, .marks id) =>
    match p.phase i with
    | .marking todo err doneErr =>
      if id ∈ todo then
        let (d, outputs) := p.outputs.done id
        let todo := todo.erase id
        let phase := match d with
          | .failed e => .loop todo err (join doneErr (some e))
          | .pending => .loop todo err (join doneErr none)
          | .close closer => .closing id closer todo err doneErr
        some { p with
          outputs, phase := Function.update p.phase i phase, marks := p.marks ++ [(i, id)] }
      else none
    | _ => none
  | (i, .closes closeErr) =>
    match p.phase i with
    | .closing id closer todo err doneErr =>
      let closeErr := closeErr.map (.errorf "failed to close output %s: %w" [.str id])
      some { p with
        phase := Function.update p.phase i (.loop todo err (join doneErr closeErr))
        closes := p.closes ++ [(i, id, closer)] }
    | _ => none

def Enabled (a : Nat × Act) : Prop := (p.step steps a).isSome

instance (a : Nat × Act) : Decidable (p.Enabled steps a) := inferInstanceAs (Decidable (_ = true))

def next (a : Nat × Act) : Pipeline C := (p.step steps a).getD p

/-! ## Closing an output -/

/-- The step `i` lists the output `id`. -/
def Lists (i : Nat) (id : Bytes) : Prop := ∃ s ∈ steps[i]?, id ∈ s.outputs

instance (i : Nat) (id : Bytes) : Decidable (Lists steps i id) :=
  inferInstanceAs (Decidable (∃ s ∈ steps[i]?, id ∈ s.outputs))

/-- The step `i` may call the closer of the output `id`: every step that lists the output has
returned and marked it, this one last; all of them list this closer; and it was not called yet. -/
structure MayClose (i : Nat) (id : Bytes) (closer : C) : Prop where
  returned : ∀ j, Lists steps j id → p.phase j ≠ .running
  marked : ∀ j, Lists steps j id → (j, id) ∈ p.marks
  last : (p.marks.filter (·.2 = id)).getLast? = some (i, id)
  closer : ∀ s ∈ steps, ∀ c, s.outputs.lookup id = some c → c = closer
  first : ∀ c ∈ p.closes, c.2.1 ≠ id

/-- `done` finds the output with a matching add, and a closer is called only when it may be. -/
def Sound : Nat × Act → Prop
  | (_, .returns _) => True
  | (_, .marks id) => ∀ e, (p.outputs.done id).1 ≠ .failed e
  | (i, .closes _) => ∀ id closer todo err doneErr,
      p.phase i = .closing id closer todo err doneErr → p.MayClose steps i id closer

/-- Once all steps are at their end, every output was closed once. -/
def ClosedOnce : Prop :=
  (∀ i < steps.length, ∃ err, p.phase i = .finished err) →
    ∀ i id, Lists steps i id → ∃ j closer, p.closes.filter (·.2.1 = id) = [(j, id, closer)]

end Pipeline

end Work
