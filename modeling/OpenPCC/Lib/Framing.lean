import Mathlib.Data.List.Basic

/-!
# Self-delimiting frames

A `Framing` writes an item as a frame and takes one item from the front of an input, whatever
follows it. Every input is a sequence of frames and a rest that is empty or from which no item can
be taken (`exists_split`), so a reader of items is determined by what it does there.
-/

/-- Items of type `α` are written with letters of type `β`. -/
structure Framing (α β ε : Type) where
  Valid : α → Prop
  frame : α → List β
  take : List β → Except ε (α × List β)
  frame_ne_nil : ∀ a, Valid a → frame a ≠ []
  take_frame : ∀ a rest, Valid a → take (frame a ++ rest) = .ok (a, rest)
  of_take : ∀ b a rest, take b = .ok (a, rest) → Valid a ∧ b = frame a ++ rest

namespace Framing

variable {α β ε : Type} (F : Framing α β ε)

/-- There is nothing to take, or no item can be taken. -/
def Stuck (rest : List β) : Prop := rest = [] ∨ ∃ e, F.take rest = .error e

variable {F}

theorem lt_of_take {b rest : List β} {a : α} (h : F.take b = .ok (a, rest)) :
    rest.length < b.length := by
  obtain ⟨ha, rfl⟩ := F.of_take b a rest h
  have hpos := List.length_pos_iff.2 (F.frame_ne_nil a ha)
  rw [List.length_append]
  omega

theorem exists_split (b : List β) :
    ∃ (l : List α) (rest : List β),
      (∀ a ∈ l, F.Valid a) ∧ b = l.flatMap F.frame ++ rest ∧ F.Stuck rest := by
  -- by induction on the length: taking an item leaves a shorter rest
  induction hn : b.length using Nat.strongRecOn generalizing b with
  | ind n ih =>
    cases htake : F.take b with
    | error e => exact ⟨[], b, by simp, by simp, .inr ⟨e, htake⟩⟩
    | ok r =>
      obtain ⟨a, rest⟩ := r
      obtain ⟨ha, hb⟩ := F.of_take b a rest htake
      obtain ⟨l, rest', hl, hrest, hstuck⟩ := ih rest.length (hn ▸ lt_of_take htake) rest rfl
      refine ⟨a :: l, rest', List.forall_mem_cons.2 ⟨ha, hl⟩, ?_, hstuck⟩
      rw [hb, hrest, List.flatMap_cons, List.append_assoc]

end Framing
