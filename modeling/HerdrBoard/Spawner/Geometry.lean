import HerdrBoard.Spawner.Herdr

/-!
# Split geometry

Which way a pane is split, and at what ratio, for a shell anchor and an agent to fit.
Ratios are exact. -/

namespace HerdrBoard.Spawner

def ERR_ANCHOR_TOO_SMALL : String := "anchor_too_small"

def ANCHOR_MIN_WIDTH : Nat := 24
def ANCHOR_MIN_HEIGHT : Nat := 6
def AGENT_MIN_WIDTH : Nat := 12
def AGENT_MIN_HEIGHT : Nat := 8
def ANCHOR_RATIO : ℚ := 2 / 5
def RECOVERY_TARGET_RATIO : ℚ := 3 / 4

/-- The largest u64. -/
def u64Max : Nat := 18446744073709551615

def saturatingMul (a b : Nat) : Nat := min (a * b) u64Max

def clampRatio (x lo hi : ℚ) : ℚ := if x < lo then lo else if hi < x then hi else x

def layoutTarget (layout : List LayoutPane) (targetId : String) : Except Failure LayoutPane :=
  match layout.find? fun pane => pane.paneId == targetId with
  | some pane => .ok pane
  | none => .error (.message s!"layout has no target pane {targetId}")

/-- The extent along a split, and across it. -/
def Rect.axis (rect : Rect) : SplitDirection → Nat
  | .right => rect.width
  | .down => rect.height

def Rect.crossAxis (rect : Rect) : SplitDirection → Nat
  | .right => rect.height
  | .down => rect.width

def anchorMin : SplitDirection → Nat
  | .right => ANCHOR_MIN_WIDTH
  | .down => ANCHOR_MIN_HEIGHT

def childMin : SplitDirection → Nat
  | .right => AGENT_MIN_WIDTH
  | .down => AGENT_MIN_HEIGHT

def crossMin : SplitDirection → Nat
  | .right => max ANCHOR_MIN_HEIGHT AGENT_MIN_HEIGHT
  | .down => max ANCHOR_MIN_WIDTH AGENT_MIN_WIDTH

/-- A wide pane is divided left and right, any other one, or one too low or narrow for that,
the other way. -/
def chooseSplitDirection (target : LayoutPane) (targetId : String) :
    Except Failure SplitDirection :=
  let rightOk := ANCHOR_MIN_WIDTH + AGENT_MIN_WIDTH ≤ target.rect.width ∧
    max ANCHOR_MIN_HEIGHT AGENT_MIN_HEIGHT ≤ target.rect.height
  let downOk := ANCHOR_MIN_HEIGHT + AGENT_MIN_HEIGHT ≤ target.rect.height ∧
    max ANCHOR_MIN_WIDTH AGENT_MIN_WIDTH ≤ target.rect.width
  let preferRight := saturatingMul 2 target.rect.height ≤ target.rect.width
  if preferRight ∧ rightOk then .ok .right
  else if downOk then .ok .down
  else if rightOk then .ok .right
  else .error (.message
    (s!"{ERR_ANCHOR_TOO_SMALL}: pane {targetId} is {target.rect.width}x{target.rect.height}, " ++
    "need at least 36x14 for an anchor and agent"))

/-- The fraction of the target that an anchor keeps beside a child. -/
def anchorRatio (rect : Rect) (direction : SplitDirection) : ℚ :=
  clampRatio ANCHOR_RATIO (anchorMin direction / rect.axis direction)
    (1 - childMin direction / rect.axis direction)

def initialSplitGeometry (layout : List LayoutPane) (targetId : String) :
    Except Failure (SplitDirection × ℚ) := do
  let target ← layoutTarget layout targetId
  let direction ← chooseSplitDirection target targetId
  return (direction, anchorRatio target.rect direction)

/-- How much of a live child stays when an anchor is split off it again. -/
def recoveryTargetRatio (layout : List LayoutPane) (targetId : String)
    (direction : SplitDirection) :
    Except Failure ℚ := do
  let target ← layoutTarget layout targetId
  let axis := target.rect.axis direction
  let targetMin := childMin direction
  let splitMin := anchorMin direction + childMin direction
  if axis < targetMin + splitMin then
    .error
      (.message
        (s!"{ERR_ANCHOR_TOO_SMALL}: pane {targetId} is too small to recreate an anchor and " ++
      "split a child"))
  else if target.rect.crossAxis direction < crossMin direction then
    .error
      (.message s!"{ERR_ANCHOR_TOO_SMALL}: pane {targetId} is too narrow to recreate an anchor")
  else .ok (clampRatio RECOVERY_TARGET_RATIO (targetMin / axis) (1 - splitMin / axis))

def splitGeometry (layout : List LayoutPane) (targetId : String) :
    Except Failure (SplitDirection × ℚ) := do
  let target ← layoutTarget layout targetId
  let direction ← chooseSplitDirection target targetId
  let splitMin := anchorMin direction + childMin direction
  if target.rect.axis direction < splitMin ∨
    target.rect.crossAxis direction < crossMin direction then
    let needed := if direction = .right then (splitMin, crossMin direction)
      else (crossMin direction, splitMin)
    .error
      (.message
        (s!"{ERR_ANCHOR_TOO_SMALL}: pane {targetId} is {target.rect.width}x{target.rect.height}, " ++
      s!"need at least {needed.1}x{needed.2} for an anchor and agent"))
  else .ok (direction, anchorRatio target.rect direction)

end HerdrBoard.Spawner
