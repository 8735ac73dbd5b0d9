import Mathlib.Data.List.AList
import OpenPCC.Go.Error
import OpenPCC.Go.Utf8

/-!
# Kernel command lines

`parse` reads a kernel command line into a map of its keys: a state machine over the runes of the
text, with `key=value` and bare `key` words separated by blanks, and values that may be quoted
in part, with backslash escapes inside the quotes.
-/

namespace Cmdline

open Go

inductive State where
  | key | value | valueQuoted
  deriving DecidableEq, Repr

/-- `map[string]string`. -/
abbrev Params := AList fun _ : Bytes => Bytes

/-- The variables of the loop. -/
structure Parser where
  inEscape : Bool := false
  currentKey : Bytes := []
  currentValue : Bytes := []
  state : State := .key
  result : Params := ∅
  deriving DecidableEq

/-- One iteration: rune `r` at byte `i`. -/
def Parser.step (p : Parser) (i : Nat) (r : Char) : Except Err Parser :=
  if p.inEscape then
    if p.state ≠ .valueQuoted then
      .error (.new "escape sequence not allowed outside quoted values at position %d" [.int i])
    else .ok { p with currentValue := p.currentValue ++ utf8 [r], inEscape := false }
  else if r = '\\' then
    if p.state ≠ .valueQuoted then
      .error (.new "escape sequence not allowed outside quoted values at position %d" [.int i])
    else .ok { p with inEscape := true }
  else if r = '"' then
    match p.state with
    | .key => .error (.new "quotes not allowed in keys at position %d" [.int i])
    | .value => .ok { p with state := .valueQuoted }
    | .valueQuoted => .ok { p with state := .value }
  else if r = '=' ∧ p.state = .key then
    if p.currentKey = [] then .error (.new "empty key before '=' at position %d" [.int i])
    else .ok { p with state := .value }
  else if (r = ' ' ∨ r = '\t') ∧ p.state ≠ .valueQuoted then
    if p.state = .key ∧ p.currentKey ≠ [] then
      .ok { p with result := p.result.insert p.currentKey [], currentKey := [] }
    else if p.state = .value then
      .ok { p with
        result := p.result.insert p.currentKey p.currentValue
        currentKey := []
        currentValue := []
        state := .key }
    else .ok p
  else if r = ' ' ∨ r = '\t' then
    if p.state = .key then .error (.new "spaces not allowed in keys at position %d" [.int i])
    else .ok { p with currentValue := p.currentValue ++ utf8 [r] }
  else if p.state = .key then .ok { p with currentKey := p.currentKey ++ utf8 [r] }
  else .ok { p with currentValue := p.currentValue ++ utf8 [r] }

/-- The loop from byte `i` on. -/
def Parser.run : Parser → Nat → List Rune → Except Err Parser
  | p, _, [] => .ok p
  | p, i, r :: rs =>
    match p.step i r.char with
    | .ok p' => p'.run (i + r.size) rs
    | .error e => .error e

/-- What follows the loop. -/
def Parser.finish (p : Parser) : Except Err Params :=
  if p.inEscape then .error (.new "unterminated escape sequence at end of string" [])
  else if p.state = .valueQuoted then .error (.new "unterminated quoted string" [])
  else if p.state = .key ∧ p.currentKey ≠ [] then .ok (p.result.insert p.currentKey [])
  else if p.currentKey ≠ [] then .ok (p.result.insert p.currentKey p.currentValue)
  else .ok p.result

def parse (cmdline : Bytes) : Except Err Params :=
  match Parser.run {} 0 (trimSpace (runes cmdline)) with
  | .ok p => p.finish
  | .error e => .error e

end Cmdline
