import Mathlib.Tactic.TypeStar

/-!
# Protocol values

The enumerations, patches and request parameters of the board protocol, and the errors a
request can end in. -/

namespace HerdrBoard.Core

/-- The Unicode White_Space property. -/
def isWhitespace (c : Char) : Bool :=
  (9 ≤ c.toNat && c.toNat ≤ 13) || c.toNat == 0x20 || c.toNat == 0x85 || c.toNat == 0xA0 ||
    c.toNat == 0x1680 ||
    (0x2000 ≤ c.toNat && c.toNat ≤ 0x200A) || c.toNat == 0x2028 || c.toNat == 0x2029 ||
    c.toNat == 0x202F || c.toNat == 0x205F || c.toNat == 0x3000

/-- `s.trim().is_empty()`. -/
def isBlank (s : String) : Bool := s.toList.all isWhitespace

/-- `str::trim`. -/
def trim (s : String) : String :=
  String.ofList (((s.toList.dropWhile isWhitespace).reverse.dropWhile isWhitespace).reverse)

/-- A nullable field of an update: leave it, set it to NULL, or set it. -/
inductive Patch (α : Type) where
  | unchanged
  | clear
  | set (value : α)
  deriving DecidableEq, Repr

def Patch.isUnchanged {α : Type} : Patch α → Bool
  | .unchanged => true
  | _ => false

/-- `apply_patch`. -/
def Patch.apply {α : Type} (target : Option α) : Patch α → Option α
  | .unchanged => target
  | .clear => none
  | .set value => some value

inductive Trigger where
  | manual
  | auto
  deriving DecidableEq, Repr

inductive SpaceKind where
  | workspace
  | newWorkspace
  deriving DecidableEq, Repr

inductive CardStatus where
  | idle
  | queued
  | running
  | blocked
  | failed
  | awaiting
  | done
  deriving DecidableEq, Repr

inductive AwaitingReason where
  | agentDone
  | idleExpired
  deriving DecidableEq, Repr

inductive RunOutcome where
  | ok
  | fail
  | cancelled
  | lost
  deriving DecidableEq, Repr

inductive Effort where
  | off
  | minimal
  | low
  | medium
  | high
  | xhigh
  | max
  deriving DecidableEq, Repr

def Effort.asStr : Effort → String
  | .off => "off"
  | .minimal => "minimal"
  | .low => "low"
  | .medium => "medium"
  | .high => "high"
  | .xhigh => "xhigh"
  | .max => "max"

def Effort.parseStr : String → Option Effort
  | "off" => some .off
  | "minimal" => some .minimal
  | "low" => some .low
  | "medium" => some .medium
  | "high" => some .high
  | "xhigh" => some .xhigh
  | "max" => some .max
  | _ => none

/-! ## Errors -/

/-- Why SQLite refused a statement. -/
inductive ConstraintViolation where
  | check
  | unique
  | foreignKey
  deriving DecidableEq, Repr

inductive ValidationError where
  | columnHasCards
  | columnHasActiveCard
  | cardBusy
  | cardHasActiveRun
  | bypassNotAllowed
  | newWorkspaceIncomplete
  | unknownHarness (name : String)
  | invalidModel (model : String)
  | invalidEffort (effort : String)
  | piPermissionUnsupported
  | invalidPermission (permission : String)
  | orphanedColumnOverride
  deriving DecidableEq, Repr

inductive Error where
  | sqlite (violation : ConstraintViolation)
  | json (message : String)
  | badRequest (message : String)
  | notFound (message : String)
  | invalidState (message : String)
  | herdrUnavailable (message : String)
  | validation (error : ValidationError)
  /-- Raised by a lifecycle fault hook. -/
  | fault (message : String)
  deriving DecidableEq, Repr

/-! ## Request parameters -/

structure ColumnCreateParams where
  name : String
  boardId : Option Int := none
  position : Option Int := none
  systemPrompt : Option String := none
  trigger : Option Trigger := none
  onSuccessColumnId : Option Int := none
  onFailColumnId : Option Int := none
  freshSession : Option Bool := none
  harnessOverride : Option String := none
  modelOverride : Option String := none
  effortOverride : Option String := none
  permissionOverride : Option String := none
  timeoutMinutes : Option Int := none

structure ColumnUpdateParams where
  id : Int
  name : Option String := none
  position : Option Int := none
  systemPrompt : Patch String := .unchanged
  trigger : Option Trigger := none
  onSuccessColumnId : Patch Int := .unchanged
  onFailColumnId : Patch Int := .unchanged
  freshSession : Option Bool := none
  harnessOverride : Patch String := .unchanged
  modelOverride : Patch String := .unchanged
  effortOverride : Patch String := .unchanged
  permissionOverride : Patch String := .unchanged
  timeoutMinutes : Patch Int := .unchanged

structure CardCreateParams where
  title : String
  boardId : Option Int := none
  description : Option String := none
  columnId : Option Int := none
  harness : Option String := none
  model : Option String := none
  effort : Option Effort := none
  permissionMode : Option String := none
  session : Option String := none
  spaceKind : Option SpaceKind := none
  spaceRef : Option String := none
  spaceCwd : Option String := none
  position : Option Int := none
  deriving DecidableEq

structure CardUpdateParams where
  id : Int
  title : Option String := none
  description : Option String := none
  harness : Option String := none
  model : Patch String := .unchanged
  effort : Patch Effort := .unchanged
  permissionMode : Patch String := .unchanged
  session : Patch String := .unchanged
  spaceKind : Option SpaceKind := none
  spaceRef : Patch String := .unchanged
  spaceCwd : Patch String := .unchanged

structure CardMoveParams where
  id : Int
  columnId : Int
  boardId : Option Int := none
  position : Option Int := none

structure CommentAddParams where
  cardId : Int
  body : String
  author : Option String := none
  actorRunId : Option Int := none
  actorPaneId : Option String := none

structure RunDoneParams where
  cardId : Int
  outcome : RunOutcome
  summary : Option String := none
  runId : Option Int := none
  actorPaneId : Option String := none

structure RunPaneExitedParams where
  cardId : Int
  runId : Int

end HerdrBoard.Core
