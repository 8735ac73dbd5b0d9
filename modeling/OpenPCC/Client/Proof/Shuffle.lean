import Mathlib.Probability.Distributions.Uniform
import OpenPCC.Client.CachedNodeFinder
import OpenPCC.Lib.FisherYates

/-!
# The shuffle of the nodes is unbiased

`cryptoShuffle` is the Fisher–Yates shuffle with what it draws as the choices
(`cryptoShuffle_eq_shuffle`). Each arrangement of distinct nodes comes from one sequence of choices,
so uniform choices make all of them equally likely.
-/

namespace Client

open Go FisherYates
open scoped ENNReal

variable {α : Type} {nodes : Array α}

theorem cryptoShuffle_eq_shuffle (j : (i : Nat) → Fin (i + 1)) (i : Nat) (nodes : Array α) :
    cryptoShuffle (fun i => .ok (j i)) i nodes = .ok (shuffle j i nodes) := by
  induction i generalizing nodes with
  | zero => rfl
  | succ i ih => exact ih _

/-- The nodes after `cryptoShuffle`, when it draws these choices. -/
def arranged (nodes : Array α) (c : Choices nodes.size) : Except Err (Array α) :=
  cryptoShuffle (fun i => .ok (c.place i)) (nodes.size - 1) nodes

theorem bijOn_arranged (h : nodes.toList.Nodup) :
    Set.BijOn (arranged nodes) Set.univ (Except.ok '' {a | a.Perm nodes}) := by
  have hbij := bijOn_shuffle h
  have heq : arranged nodes =
      Except.ok ∘ fun c : Choices nodes.size => shuffle c.place (nodes.size - 1) nodes :=
    funext fun c => cryptoShuffle_eq_shuffle c.place _ nodes
  have hok : Set.InjOn (Except.ok (ε := Err)) {a : Array α | a.Perm nodes} :=
    fun _ _ _ _ h => Except.ok.inj h
  rw [heq]
  exact hok.bijOn_image.comp hbij

/-- A map that reaches each value of a set once makes uniform choices uniform on the set. -/
theorem map_uniform_of_bijOn {ι β : Type} [Fintype ι] [Nonempty ι] {f : ι → β} {s : Set β}
    (hf : Set.BijOn f Set.univ s) {b : β} (hb : b ∈ s) :
    (PMF.uniformOfFintype ι).map f b = (Fintype.card ι : ℝ≥0∞)⁻¹ := by
  obtain ⟨i, -, hi⟩ := hf.surjOn hb
  rw [PMF.map_apply, tsum_eq_single i]
  · rw [if_pos hi.symm, PMF.uniformOfFintype_apply]
  · intro i' hne
    refine if_neg fun hi' => hne ?_
    exact hf.injOn trivial trivial (hi'.symm.trans hi.symm)

/-- There is one sequence of choices for each arrangement of the nodes, and each arrangement has the
probability `1 / n!`. -/
theorem cryptoShuffle_unbiased (h : nodes.toList.Nodup) :
    Set.BijOn (arranged nodes) Set.univ (Except.ok '' {a | a.Perm nodes}) ∧
      ∀ a, a.Perm nodes →
        (PMF.uniformOfFintype (Choices nodes.size)).map (arranged nodes) (.ok a) =
          (nodes.size.factorial : ℝ≥0∞)⁻¹ := by
  refine ⟨bijOn_arranged h, fun a ha => ?_⟩
  rw [map_uniform_of_bijOn (bijOn_arranged h) ⟨a, ha, rfl⟩, card_choices]

theorem cryptoShuffle_unbiased_three :
    Set.BijOn (arranged #[1, 2, 3]) Set.univ (Except.ok '' {a | a.Perm #[1, 2, 3]}) ∧
      ∀ a : Array Nat, a.Perm #[1, 2, 3] →
        (PMF.uniformOfFintype (Choices 3)).map (arranged #[1, 2, 3]) (.ok a) =
          (Nat.factorial 3 : ℝ≥0∞)⁻¹ :=
  cryptoShuffle_unbiased (by decide)

end Client
