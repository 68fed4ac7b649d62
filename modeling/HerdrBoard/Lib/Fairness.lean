import HerdrBoard.Lib.Transition
import Mathlib.Order.Basic

/-!
# Infinite runs

What a fair run leads to: a state that stays as it is until an action is taken, which is taken
again and again. -/

namespace Lib

namespace System

variable {σ ι : Type} {S : System σ ι}

/-- A run that does not end. -/
structure InfiniteRun (S : System σ ι) where
  state : Nat → σ
  label : Nat → ι
  init : S.init (state 0)
  valid : ∀ n, S.step (state n) (label n) (state (n + 1))

namespace InfiniteRun

variable (run : S.InfiniteRun)

theorem reachable (n : Nat) : S.Reachable (run.state n) := by
  induction n with
  | zero => exact ReachableBy.init run.init
  | succ n ih => exact ih.step trivial (run.valid n)

/-- The action is taken again and again. -/
def Fair (action : ι → Prop) : Prop := ∀ n, ∃ m, n ≤ m ∧ action (run.label m)

variable {run} {action : ι → Prop} {P Q : σ → Prop}

/-- `P` lasts until the action is taken, which leads to `Q`. -/
theorem leadsTo (hfair : run.Fair action)
    (hstay : ∀ s l s', S.Reachable s → P s → S.step s l s' → P s' ∨ Q s')
    (haction : ∀ s l s', S.Reachable s → P s → action l → S.step s l s' → Q s') (n : Nat)
    (hn : P (run.state n)) : ∃ m, n ≤ m ∧ Q (run.state m) := by
  obtain ⟨m, hle, hm⟩ := hfair n
  have hlasts : ∀ k, (∃ j, n ≤ j ∧ Q (run.state j)) ∨ P (run.state (n + k)) := by
    intro k
    induction k with
    | zero => exact .inr hn
    | succ k ih =>
        rcases ih with hq | hp
        · exact .inl hq
        · rcases hstay _ _ _ (run.reachable (n + k)) hp (run.valid (n + k)) with hp | hq
          · exact .inr hp
          · exact .inl ⟨n + k + 1, by omega, hq⟩
  rcases hlasts (m - n) with hq | hp
  · exact hq
  · rw [Nat.add_sub_cancel' hle] at hp
    exact ⟨m + 1, by omega, haction _ _ _ (run.reachable m) hp hm (run.valid m)⟩

end InfiniteRun

end System

end Lib
