import Mathlib.Algebra.Order.Ring.Int
import OpenPCC.Lib.Bytes

/-!
# Errors, contexts, 64-bit integers and binary search

The parts of Go the model is written in: error values with their wrapping (`errors.New`,
`fmt.Errorf`, `errors.Join`, `errors.Is`), the state of a cancelled context, the wrap-around
of `int64` and `sort.Search`. A nil error is `none`; a function that returns a value or an error
is an `Except`.
-/

namespace Go

/-- The package-level error variables of the program and of `context`. -/
inductive ErrVar where
  | canceled | deadlineExceeded
  | finished | nonceConsumed | nonceLocked
  | negativeUnrepresentable | overflow | noExactRepresentation | notAnAmount
  | tooShort | tooManyBitsSet
  deriving DecidableEq, Repr

/-- An operand of a format verb. -/
inductive Arg where
  | str (b : Bytes)
  | int (i : Int)
  /-- a struct of a bool and a number -/
  | value (shift : Bool) (value : Nat)
  deriving DecidableEq, Repr

/-- Error values. `new` is `errors.New`, or `fmt.Errorf` without `%w`; `errorf` is `fmt.Errorf`
with `%w`; `join1` and `join2` are the results of `errors.Join` on one and two errors. -/
inductive Err where
  | var (v : ErrVar)
  | new (format : String) (args : List Arg)
  | errorf (format : String) (args : List Arg) (err : Err)
  | join1 (err : Err)
  | join2 (err err' : Err)
  | inputError (err : Err)
  | verificationError (err : Err)
  | insufficientBalance (balance : Int)
  deriving DecidableEq, Repr

/-- `errors.Is(err, v)`: `v` is in the tree of wrapped errors. -/
def Err.is : Err → ErrVar → Bool
  | .var w, v => w == v
  | .new _ _, _ => false
  | .errorf _ _ e, v => e.is v
  | .join1 e, v => e.is v
  | .join2 e e', v => e.is v || e'.is v
  | .inputError e, v => e.is v
  | .verificationError e, v => e.is v
  | .insufficientBalance _, _ => false

/-- `errors.Join(e, e')` of a non-nil `e`. -/
def Err.join (e : Err) : Option Err → Err
  | none => .join1 e
  | some e' => .join2 e e'

/-- `errors.Join(e, e')`. -/
def join : Option Err → Option Err → Option Err
  | some e, e' => some (e.join e')
  | none, e' => e'.map .join1

/-- A cancelled context: what `ctx.Err()` and `context.Cause(ctx)` return. -/
structure CtxDone where
  err : Err
  cause : Err
  deriving DecidableEq, Repr

/-! ## `int64` -/

def maxInt64 : Int := 2 ^ 63 - 1

/-- The value of an `int64` computation whose exact result is `x`. -/
def int64 (x : Int) : Int := x.bmod (2 ^ 64)

theorem int64_eq {x : Int} (h0 : 0 ≤ x) (h1 : x ≤ maxInt64) : int64 x = x := by
  unfold maxInt64 at h1
  exact Int.bmod_eq_of_le (by omega) (by omega)

theorem int64_eq_of_range {x : Int} (h0 : -maxInt64 ≤ x) (h1 : x ≤ maxInt64) : int64 x = x := by
  unfold maxInt64 at h0 h1
  exact Int.bmod_eq_of_le (by omega) (by omega)

theorem int64_int64 (x : Int) : int64 (int64 x) = int64 x := Int.bmod_bmod

theorem int64_int64_add (x y : Int) : int64 (int64 x + y) = int64 (x + y) := Int.bmod_add_bmod

/-! ## Binary search -/

/-- The loop of `sort.Search` between `i` and `j`. -/
def searchLoop (f : Nat → Bool) : Nat → Nat → Nat → Nat
  | 0, i, _ => i
  | fuel + 1, i, j =>
    if i < j then
      let h := (i + j) / 2
      if f h then searchLoop f fuel i h else searchLoop f fuel (h + 1) j
    else i

/-- `sort.Search`; each iteration shortens the range, so `n` of them are enough. -/
def search (n : Nat) (f : Nat → Bool) : Nat := searchLoop f n 0 n

end Go
