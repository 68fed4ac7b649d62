import Mathlib.Logic.Relation

/-!
# Labelled transition systems

Runs of a system whose steps all meet a condition, and the rules that carry a property of one
step to runs. -/

namespace Lib

open Relation

/-- A transition system with labelled steps. -/
structure System (σ ι : Type) where
  init : σ → Prop
  step : σ → ι → σ → Prop

namespace System

variable {σ ι : Type} (S : System σ ι)

/-- One step that meets `ok`. -/
def Next (ok : σ → ι → Prop) (s t : σ) : Prop := ∃ l, ok s l ∧ S.step s l t

/-- Any number of steps that all meet `ok`. -/
def Steps (ok : σ → ι → Prop) : σ → σ → Prop := ReflTransGen (S.Next ok)

/-- Reached from an initial state by steps that all meet `ok`. -/
def ReachableBy (ok : σ → ι → Prop) (s : σ) : Prop := ∃ s₀, S.init s₀ ∧ S.Steps ok s₀ s

/-- Reached from an initial state by any steps. -/
def Reachable (s : σ) : Prop := S.ReachableBy (fun _ _ => True) s

variable {S} {ok : σ → ι → Prop}

theorem ReachableBy.init {s : σ} (h : S.init s) : S.ReachableBy ok s := ⟨s, h, .refl⟩

theorem ReachableBy.step {s t : σ} {l : ι} (h : S.ReachableBy ok s) (hok : ok s l)
    (hl : S.step s l t) : S.ReachableBy ok t := by
  obtain ⟨s₀, h₀, hs⟩ := h
  exact ⟨s₀, h₀, hs.tail ⟨l, hok, hl⟩⟩

/-- What the steps preserve holds wherever they lead. -/
theorem Steps.preserves {I : σ → Prop} (hstep : ∀ s l t, I s → ok s l → S.step s l t →
    I t) {s t : σ} (h : S.Steps ok s t) (hs : I s) : I t := by
  induction h with
  | refl => exact hs
  | tail _ hl ih =>
      obtain ⟨l, hok, hl⟩ := hl
      exact hstep _ l _ ih hok hl

/-- What holds initially and is preserved by every step holds in every reachable state. -/
theorem ReachableBy.invariant {I : σ → Prop} (hinit : ∀ s, S.init s → I s)
    (hstep : ∀ s l t, I s → ok s l → S.step s l t → I t) {s : σ} (h : S.ReachableBy ok s) :
    I s := by
  obtain ⟨s₀, h₀, hs⟩ := h
  exact hs.preserves hstep (hinit s₀ h₀)

end System

end Lib
