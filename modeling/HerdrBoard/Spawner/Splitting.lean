import HerdrBoard.Spawner.Placement
import Mathlib.Algebra.Order.Field.Basic
import Mathlib.Algebra.Order.Field.Rat
import Mathlib.Data.Rat.Cast.Order
import Mathlib.Tactic.Linarith

/-!
# Splits leave usable panes

A pane is split only where an anchor and a child fit, and an anchor recovered from a child has room
for its own split. -/

namespace HerdrBoard.Spawner

open Lib

variable {layout : List LayoutPane} {targetId : String} {target : LayoutPane} {rect : Rect}
  {direction : SplitDirection} {ratio : ℚ}

/-! ## Parts of a rectangle -/

/-- The part of a rectangle with this extent along the split. -/
def Rect.part (rect : Rect) (direction : SplitDirection) (extent : Nat) : Rect :=
  match direction with
  | .right => { rect with width := extent }
  | .down => { rect with height := extent }

def Rect.AnchorSized (rect : Rect) : Prop :=
  ANCHOR_MIN_WIDTH ≤ rect.width ∧ ANCHOR_MIN_HEIGHT ≤ rect.height

def Rect.ChildSized (rect : Rect) : Prop :=
  AGENT_MIN_WIDTH ≤ rect.width ∧ AGENT_MIN_HEIGHT ≤ rect.height

/-- The rectangle can be divided into an anchor and a child. -/
def Rect.Divides (rect : Rect) (direction : SplitDirection) : Prop :=
  ∃ anchor child, anchor + child = rect.axis direction ∧ (rect.part direction anchor).AnchorSized ∧
    (rect.part direction child).ChildSized

/-- The target keeps its minimum of the extent along the split, and leaves the other
pane its own. -/
structure Rect.Leaves (rect : Rect) (direction : SplitDirection) (ratio : ℚ)
    (targetMin otherMin : Nat) : Prop where
  target : (targetMin : ℚ) ≤ ratio * rect.axis direction
  other : (otherMin : ℚ) ≤ (1 - ratio) * rect.axis direction

/-- The extents that a split at the ratio may come to in whole cells. -/
structure Rect.SplitsTo (rect : Rect) (direction : SplitDirection) (ratio : ℚ) (kept new : Nat) :
    Prop where
  whole : kept + new = rect.axis direction
  near : |(kept : ℚ) - ratio * rect.axis direction| < 1

theorem anchorSized_part {extent : Nat} (hextent : anchorMin direction ≤ extent)
    (hcross : crossMin direction ≤ rect.crossAxis direction) :
    (rect.part direction extent).AnchorSized := by
  revert hextent hcross
  cases direction <;>
    simp only [Rect.AnchorSized, Rect.part, anchorMin, crossMin, Rect.crossAxis, ANCHOR_MIN_WIDTH,
      ANCHOR_MIN_HEIGHT, AGENT_MIN_WIDTH, AGENT_MIN_HEIGHT] <;> omega

theorem childSized_part {extent : Nat} (hextent : childMin direction ≤ extent)
    (hcross : crossMin direction ≤ rect.crossAxis direction) :
    (rect.part direction extent).ChildSized := by
  revert hextent hcross
  cases direction <;>
    simp only [Rect.ChildSized, Rect.part, childMin, crossMin, Rect.crossAxis, ANCHOR_MIN_WIDTH,
      ANCHOR_MIN_HEIGHT, AGENT_MIN_WIDTH, AGENT_MIN_HEIGHT] <;> omega

/-- An anchor and a child fit beside each other. -/
def Rect.Fits (rect : Rect) (direction : SplitDirection) : Prop :=
  anchorMin direction + childMin direction ≤ rect.axis direction ∧
    crossMin direction ≤ rect.crossAxis direction

theorem divides_iff : rect.Divides direction ↔ rect.Fits direction := by
  constructor
  · rintro ⟨anchor, child, hsum, hanchor, hchild⟩
    cases direction <;>
      simp only [Rect.Fits, Rect.AnchorSized, Rect.ChildSized, Rect.part, Rect.axis, Rect.crossAxis,
        anchorMin, childMin,
        crossMin, ANCHOR_MIN_WIDTH, ANCHOR_MIN_HEIGHT, AGENT_MIN_WIDTH, AGENT_MIN_HEIGHT]
          at * <;> omega
  · rintro ⟨haxis, hcross⟩
    refine ⟨anchorMin direction, rect.axis direction - anchorMin direction, by omega, ?_, ?_⟩
    · exact anchorSized_part (le_refl _) hcross
    · exact childSized_part (by omega) hcross

/-! ## The direction -/

theorem chooseSplitDirection_ok (h : chooseSplitDirection target targetId = .ok direction) :
    target.rect.Fits direction := by
  unfold chooseSplitDirection at h
  simp only at h
  split at h
  · rename_i hright
    cases h
    exact hright.2
  · split at h
    · rename_i hdown
      cases h
      exact hdown
    · split at h
      · rename_i hright
        cases h
        exact hright
      · cases h

theorem chooseSplitDirection_of_fits (h : target.rect.Fits direction) :
    ∃ direction', chooseSplitDirection target targetId = .ok direction' := by
  unfold chooseSplitDirection
  simp only
  split
  · exact ⟨_, rfl⟩
  · split
    · exact ⟨_, rfl⟩
    · split
      · exact ⟨_, rfl⟩
      · rename_i hdown hright
        cases direction with
        | right => exact absurd h hright
        | down => exact absurd h hdown

/-! ## The ratio -/

/-- The bounds of a clamp are in order, and the ratio is what it returns. -/
structure Clamped (preferred lo hi ratio : ℚ) : Prop where
  ordered : lo ≤ hi
  eq : ratio = clampRatio preferred lo hi

theorem Clamped.bounds {preferred lo hi : ℚ} (h : Clamped preferred lo hi ratio) :
    lo ≤ ratio ∧ ratio ≤ hi := by
  obtain ⟨hordered, rfl⟩ := h
  unfold clampRatio
  split
  · exact ⟨le_refl _, hordered⟩
  · rename_i hlo
    split
    · exact ⟨hordered, le_refl _⟩
    · rename_i hhi
      exact ⟨not_lt.mp hlo, not_lt.mp hhi⟩

variable {targetMin otherMin : Nat}

/-- The bounds of a ratio that leaves both panes their minimum. -/
abbrev ClampedFor (rect : Rect) (direction : SplitDirection) (preferred : ℚ)
    (targetMin otherMin : Nat) (ratio : ℚ) : Prop :=
  Clamped preferred (targetMin / rect.axis direction) (1 - otherMin / rect.axis direction) ratio

theorem ordered_bounds (hroom : targetMin + otherMin ≤ rect.axis direction) (hpos : 0 < targetMin) :
    (targetMin : ℚ) / rect.axis direction ≤ 1 - otherMin / rect.axis direction := by
  have haxis : (0 : ℚ) < rect.axis direction := by exact_mod_cast Nat.lt_of_lt_of_le hpos (by omega)
  have hsum : (targetMin : ℚ) + otherMin ≤ rect.axis direction := by exact_mod_cast hroom
  rw [le_sub_iff_add_le, ← add_div, div_le_one haxis]
  exact hsum

theorem ClampedFor.leaves {preferred : ℚ}
    (h : ClampedFor rect direction preferred targetMin otherMin ratio)
    (hroom : targetMin + otherMin ≤ rect.axis direction) (hpos : 0 < targetMin) :
    rect.Leaves direction ratio targetMin otherMin := by
  have haxis : (0 : ℚ) < rect.axis direction := by exact_mod_cast Nat.lt_of_lt_of_le hpos (by omega)
  obtain ⟨hlo, hhi⟩ := h.bounds
  refine ⟨(div_le_iff₀ haxis).mp hlo, ?_⟩
  have hother : (otherMin : ℚ) / rect.axis direction ≤ 1 - ratio := by linarith
  exact (div_le_iff₀ haxis).mp hother

/-- Rounding to whole cells takes no pane below a whole minimum. -/
theorem Rect.Leaves.whole {kept new : Nat} (h : rect.Leaves direction ratio targetMin otherMin)
    (hsplit : rect.SplitsTo direction ratio kept new) : targetMin ≤ kept ∧ otherMin ≤ new := by
  obtain ⟨hlow, hhigh⟩ := abs_lt.mp hsplit.near
  have hsum : (kept : ℚ) + new = rect.axis direction := by exact_mod_cast hsplit.whole
  have htarget := h.target
  have hother := h.other
  constructor
  · have hlt : (targetMin : ℚ) < kept + 1 := by linarith
    exact Nat.lt_succ_iff.mp (by exact_mod_cast hlt)
  · have hlt : (otherMin : ℚ) < new + 1 := by linarith
    exact Nat.lt_succ_iff.mp (by exact_mod_cast hlt)

theorem anchorMin_pos (direction : SplitDirection) : 0 < anchorMin direction := by
  cases direction <;> decide

theorem childMin_pos (direction : SplitDirection) : 0 < childMin direction := by
  cases direction <;> decide

/-! ## Splitting -/

theorem initialSplitGeometry_ok
    (h : initialSplitGeometry layout targetId = .ok (direction, ratio)) :
    ∃ target, layoutTarget layout targetId = .ok target ∧ target.rect.Fits direction ∧
      ratio = anchorRatio target.rect direction := by
  obtain ⟨target, htarget, hrest⟩ := except_bind_ok.mp h
  obtain ⟨direction', hdirection, hreturn⟩ := except_bind_ok.mp hrest
  cases hreturn
  exact ⟨target, htarget, chooseSplitDirection_ok hdirection, rfl⟩

/-- The second check of `split_geometry` never refuses what the direction was chosen for. -/
theorem splitGeometry_eq (layout : List LayoutPane) (targetId : String) :
    splitGeometry layout targetId = initialSplitGeometry layout targetId := by
  unfold splitGeometry initialSplitGeometry
  cases htarget : layoutTarget layout targetId with
  | error e => rfl
  | ok target =>
      cases hdirection : chooseSplitDirection target targetId with
      | error e => simp only [bind, Except.bind, hdirection]
      | ok direction =>
          obtain ⟨haxis, hcross⟩ := chooseSplitDirection_ok hdirection
          simp only [bind, Except.bind, hdirection]
          rw [if_neg (by omega)]
          rfl

theorem splits_iff : (∃ r, splitGeometry layout targetId = .ok r) ↔
    ∃ target, layoutTarget layout targetId = .ok target ∧
      ∃ direction, target.rect.Divides direction := by
  rw [splitGeometry_eq]
  constructor
  · rintro ⟨⟨direction, ratio⟩, h⟩
    obtain ⟨target, htarget, hfits, -⟩ := initialSplitGeometry_ok h
    exact ⟨target, htarget, direction, divides_iff.mpr hfits⟩
  · rintro ⟨target, htarget, direction, hdivides⟩
    obtain ⟨direction', hdirection⟩ := chooseSplitDirection_of_fits (divides_iff.mp hdivides)
    exact ⟨_, except_bind_ok.mpr
      ⟨target, htarget, except_bind_ok.mpr ⟨direction', hdirection, rfl⟩⟩⟩

/-- What a split into an anchor and a child comes to. -/
structure SplitsUsably (rect : Rect) (direction : SplitDirection) (ratio : ℚ) : Prop where
  clamped : ClampedFor rect direction ANCHOR_RATIO (anchorMin direction) (childMin direction) ratio
  leaves : rect.Leaves direction ratio (anchorMin direction) (childMin direction)
  parts : ∀ kept new, rect.SplitsTo direction ratio kept new →
    (rect.part direction kept).AnchorSized ∧ (rect.part direction new).ChildSized

theorem splitsUsably_of_ok (h : splitGeometry layout targetId = .ok (direction, ratio)) :
    ∃ target, layoutTarget layout targetId = .ok target ∧
      SplitsUsably target.rect direction ratio := by
  rw [splitGeometry_eq] at h
  obtain ⟨target, htarget, ⟨haxis, hcross⟩, rfl⟩ := initialSplitGeometry_ok h
  have hclamped : ClampedFor target.rect direction ANCHOR_RATIO (anchorMin direction)
      (childMin direction)
      (anchorRatio target.rect direction) := ⟨ordered_bounds haxis (anchorMin_pos direction), rfl⟩
  have hleaves := ClampedFor.leaves hclamped haxis (anchorMin_pos direction)
  refine ⟨target, htarget, hclamped, hleaves, fun kept new hsplit => ?_⟩
  obtain ⟨hkept, hnew⟩ := hleaves.whole hsplit
  exact ⟨anchorSized_part hkept hcross, childSized_part hnew hcross⟩

/-! ## Recovering an anchor -/

theorem fits_part {extent : Nat} (hextent : anchorMin direction + childMin direction ≤ extent)
    (hcross : crossMin direction ≤ rect.crossAxis direction) :
    (rect.part direction extent).Fits direction := by
  cases direction <;> exact ⟨hextent, hcross⟩

/-- What a split that gives a child's tab an anchor again comes to. -/
structure RecoversUsably (rect : Rect) (direction : SplitDirection) (ratio : ℚ) : Prop where
  clamped : ClampedFor rect direction RECOVERY_TARGET_RATIO (childMin direction)
    (anchorMin direction + childMin direction) ratio
  leaves : rect.Leaves direction ratio (childMin direction)
    (anchorMin direction + childMin direction)
  /-- The child stays usable, and the anchor can be split in its turn. -/
  parts : ∀ kept new, rect.SplitsTo direction ratio kept new →
    (rect.part direction kept).ChildSized ∧
    ∀ layout anchorId anchor, layoutTarget layout anchorId = .ok anchor →
      anchor.rect = rect.part direction new → ∃ r, splitGeometry layout anchorId = .ok r

theorem recoversUsably_of_ok (h : recoveryTargetRatio layout targetId direction = .ok ratio) :
    ∃ target, layoutTarget layout targetId = .ok target ∧
      RecoversUsably target.rect direction ratio := by
  obtain ⟨target, htarget, hrest⟩ := except_bind_ok.mp h
  simp only at hrest
  split at hrest
  · cases hrest
  · rename_i hroom
    split at hrest
    · cases hrest
    · rename_i hcross
      cases hrest
      have hroom' : childMin direction + (anchorMin direction + childMin direction) ≤
          target.rect.axis direction :=
        not_lt.mp hroom
      have hclamped : ClampedFor target.rect direction RECOVERY_TARGET_RATIO (childMin direction)
          (anchorMin direction + childMin direction) _ :=
        ⟨ordered_bounds hroom' (childMin_pos direction), rfl⟩
      have hleaves := ClampedFor.leaves hclamped hroom' (childMin_pos direction)
      refine ⟨target, htarget, hclamped, hleaves, fun kept new hsplit => ?_⟩
      obtain ⟨hkept, hnew⟩ := hleaves.whole hsplit
      refine ⟨childSized_part hkept (not_lt.mp hcross),
        fun layout anchorId anchor hanchor hrect => ?_⟩
      have hfits : anchor.rect.Fits direction := hrect ▸ fits_part hnew (not_lt.mp hcross)
      exact splits_iff.mpr ⟨anchor, hanchor, direction, divides_iff.mpr hfits⟩

theorem splits_keep_panes_usable :
    (∀ layout targetId, splitGeometry layout targetId = initialSplitGeometry layout targetId) ∧
    (∀ layout targetId, (∃ r, splitGeometry layout targetId = .ok r) ↔
      ∃ target, layoutTarget layout targetId = .ok target ∧
        ∃ direction, target.rect.Divides direction) ∧
    (∀ layout targetId direction ratio, splitGeometry layout targetId = .ok (direction, ratio) →
      ∃ target, layoutTarget layout targetId = .ok target ∧
        SplitsUsably target.rect direction ratio) ∧
    ∀ layout targetId direction ratio, recoveryTargetRatio layout targetId direction = .ok ratio →
      ∃ target, layoutTarget layout targetId = .ok target ∧
        RecoversUsably target.rect direction ratio :=
  ⟨splitGeometry_eq, fun _ _ => splits_iff, fun _ _ _ _ => splitsUsably_of_ok,
    fun _ _ _ _ => recoversUsably_of_ok⟩

/-- A full-screen root is divided left and right, and a child of that size takes an anchor back. -/
example :
    (splitGeometry [{ paneId := "root", rect := { width := 120, height := 40 } }] "root").toOption =
      some (.right, 2 / 5) ∧
    (recoveryTargetRatio [{ paneId := "root", rect := { width := 120, height := 40 } }] "root"
      .right).toOption = some (7 / 10) := by
  decide +kernel

end HerdrBoard.Spawner
