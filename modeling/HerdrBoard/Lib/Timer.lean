import Mathlib.Tactic.Common
import Mathlib.Order.Basic

/-!
# Timers that pause

A deadline that is moved by the length of each pause. What is left of a timer is the same on every
clock, does not change while it is paused, and is used up by the time that it runs. -/

namespace Lib

/-- A deadline, and since when it is paused. -/
structure Timer where
  deadline : Int
  pausedAt : Option Int
  deriving DecidableEq

namespace Timer

section

variable (t : Timer) (now : Int)

def left : Int := max 0 (t.deadline - t.pausedAt.getD now)

/-- A pause goes on as it began. -/
def pause : Timer := { t with pausedAt := t.pausedAt <|> some now }

def resume : Timer :=
  match t.pausedAt with
  | none => t
  | some paused => ⟨t.deadline + max 0 (now - paused), none⟩

/-- The timer on a clock that shows `skew` more. -/
def shift (skew : Int) : Timer := ⟨t.deadline + skew, t.pausedAt.map (· + skew)⟩

/-- The timer as read by one who takes a deadline in the past for the present. -/
def clamp : Timer := { t with deadline := max t.deadline now }

end

variable {t : Timer} {now now' skew : Int}

theorem left_nonneg : 0 ≤ t.left now := by
  unfold left
  omega

@[simp] theorem left_shift : (t.shift skew).left (now + skew) = t.left now := by
  cases h : t.pausedAt <;> simp only [left, shift, h, Option.map_none, Option.map_some,
    Option.getD_none, Option.getD_some] <;> congr 1 <;> omega

@[simp] theorem left_pause : (t.pause now).left now = t.left now := by
  cases h : t.pausedAt <;> simp [left, pause, h]

/-- Ending a pause that began by now. -/
theorem left_resume (hpaused : ∀ p, t.pausedAt = some p → p ≤ now) :
    (t.resume now).left now = t.left now := by
  cases h : t.pausedAt with
  | none => simp [resume, h]
  | some p =>
      have hle := hpaused p h
      simp only [left, resume, h, Option.getD_none, Option.getD_some]
      omega

theorem left_of_paused (hpaused : t.pausedAt.isSome) : t.left now' = t.left now := by
  obtain ⟨p, hp⟩ := Option.isSome_iff_exists.mp hpaused
  simp [left, hp]

/-- What runs is used up. -/
theorem left_of_running (hrunning : t.pausedAt = none) (hle : now ≤ now') :
    t.left now' = max 0 (t.left now - (now' - now)) := by
  simp only [left, hrunning, Option.getD_none]
  omega

/-- Two timers that run and have as much left go on to. -/
theorem left_congr {t' : Timer} (hpaused : t'.pausedAt.isSome = t.pausedAt.isSome) {skew : Int}
    (hleft : t'.left (now + skew) = t.left now) (hle : now ≤ now') :
    t'.left (now' + skew) = t.left now' := by
  cases h : t.pausedAt with
  | some p =>
      have hsome : t.pausedAt.isSome := by simp [h]
      have hstill : t'.left (now' + skew) = t'.left (now + skew) :=
        left_of_paused (hpaused.trans hsome)
      rw [hstill, hleft, left_of_paused hsome]
  | none =>
      have hnone : t'.pausedAt = none := by simpa [h] using hpaused
      rw [left_of_running hnone (by omega : now + skew ≤ now' + skew), hleft, left_of_running h hle]
      congr 2
      omega

/-- A deadline in the past is due, paused or not, unless the pause outlasted it. -/
theorem left_clamp (hpaused : ∀ p, t.pausedAt = some p → p ≤ now) :
    (t.clamp now).left now = t.left now ↔ ∀ p, t.pausedAt = some p → now ≤ max t.deadline p := by
  cases h : t.pausedAt with
  | none =>
      simp only [left, clamp, h, Option.getD_none, reduceCtorEq, false_implies,
        implies_true, iff_true]
      omega
  | some p =>
      have hle := hpaused p h
      simp only [left, clamp, h, Option.getD_some, Option.some.injEq, forall_eq']
      omega

/-- A running timer is due exactly when nothing is left. -/
theorem left_eq_zero_iff (hrunning : t.pausedAt = none) : t.left now = 0 ↔ t.deadline ≤ now := by
  simp only [left, hrunning, Option.getD_none]
  omega

end Timer

end Lib
