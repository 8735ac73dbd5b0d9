import OpenPCC.Go.Error

/-!
# Calls that return, fail or panic

`Outcome α` is what a Go call `func(..) (α, error)` can do: return a value, return an error, or
panic. A panic is what a nil dereference, an index out of range or a conversion of a short slice
to an array raises; it is not an error, so no `err != nil` check of a caller stops it.

* `NoPanic`: the call returns, with a value or an error; `noPanic_bind` is its rule for a
  sequence of calls.
* `bind_eq_ok`: a sequence returns a value exactly when each call of it does.
-/

namespace Go

inductive Outcome (α : Type) where
  | ok (a : α)
  | err (e : Err)
  | panic
  deriving DecidableEq, Repr

namespace Outcome

variable {α β γ : Type}

/-- A call followed by the rest of the function: an error is returned at once. -/
def bind : Outcome α → (α → Outcome β) → Outcome β
  | ok a, f => f a
  | err e, _ => err e
  | panic, _ => panic

instance : Monad Outcome where
  pure := ok
  bind := bind

@[simp] theorem pure_eq (a : α) : (pure a : Outcome α) = ok a := rfl
@[simp] theorem ok_bind (a : α) (f : α → Outcome β) : (ok a >>= f) = f a := rfl
@[simp] theorem err_bind (e : Err) (f : α → Outcome β) : (err e >>= f) = err e := rfl
@[simp] theorem panic_bind (f : α → Outcome β) : (panic >>= f) = panic := rfl

/-- The result of a call that cannot panic. -/
def ofExcept : Except Err α → Outcome α
  | .ok a => ok a
  | .error e => err e

/-- `*p`. -/
def deref : Option α → Outcome α
  | some a => ok a
  | none => panic

/-- `if p == nil { return nil, e }`. -/
def orErr (e : Err) : Option α → Outcome α
  | some a => ok a
  | none => err e

/-- `if !c { return nil, e }`. -/
def check (c : Bool) (e : Err) : Outcome Unit := if c then ok () else err e

/-- `if err != nil { return nil, fmt.Errorf(format, args..., err) }`. -/
def wrap (format : String) (args : List Arg) : Outcome α → Outcome α
  | err e => err (.errorf format args e)
  | o => o

/-! ## Inversion -/

theorem bind_eq_ok {x : Outcome α} {f : α → Outcome β} {b : β} :
    (x >>= f) = ok b ↔ ∃ a, x = ok a ∧ f a = ok b := by
  cases x <;> simp

@[simp] theorem ofExcept_eq_ok {x : Except Err α} {a : α} : ofExcept x = ok a ↔ x = .ok a := by
  cases x <;> simp [ofExcept]

@[simp] theorem deref_eq_ok {p : Option α} {a : α} : deref p = ok a ↔ p = some a := by
  cases p <;> simp [deref]

@[simp] theorem orErr_eq_ok {e : Err} {p : Option α} {a : α} :
    orErr e p = ok a ↔ p = some a := by
  cases p <;> simp [orErr]

@[simp] theorem check_eq_ok {c : Bool} {e : Err} {u : Unit} : check c e = ok u ↔ c = true := by
  cases c <;> simp [check]

@[simp] theorem wrap_eq_ok {format : String} {args : List Arg} {x : Outcome α} {a : α} :
    wrap format args x = ok a ↔ x = ok a := by
  cases x <;> simp [wrap]

/-! ## Calls that do not panic -/

/-- The call returns: a value or an error. -/
def NoPanic (x : Outcome α) : Prop := x ≠ panic

instance (x : Outcome α) : Decidable (NoPanic x) :=
  match x with
  | ok _ => isTrue (by simp [NoPanic])
  | err _ => isTrue (by simp [NoPanic])
  | panic => isFalse (by simp [NoPanic])

@[simp] theorem noPanic_ok (a : α) : NoPanic (ok a) := by simp [NoPanic]
@[simp] theorem noPanic_err (e : Err) : NoPanic (err e : Outcome α) := by simp [NoPanic]
@[simp] theorem not_noPanic_panic : ¬ NoPanic (panic : Outcome α) := by simp [NoPanic]

theorem noPanic_bind {x : Outcome α} {f : α → Outcome β} :
    NoPanic (x >>= f) ↔ NoPanic x ∧ ∀ a, x = ok a → NoPanic (f a) := by
  cases x <;> simp

@[simp] theorem noPanic_ofExcept (x : Except Err α) : NoPanic (ofExcept x) := by
  cases x <;> simp [ofExcept]

@[simp] theorem noPanic_deref {p : Option α} : NoPanic (deref p) ↔ p.isSome := by
  cases p <;> simp [deref]

@[simp] theorem noPanic_orErr (e : Err) (p : Option α) : NoPanic (orErr e p) := by
  cases p <;> simp [orErr]

@[simp] theorem noPanic_check (c : Bool) (e : Err) : NoPanic (check c e) := by
  cases c <;> simp [check]

@[simp] theorem noPanic_wrap {format : String} {args : List Arg} {x : Outcome α} :
    NoPanic (wrap format args x) ↔ NoPanic x := by
  cases x <;> simp [wrap]

end Outcome

end Go
