import HerdrBoard.Core.Protocol
import HerdrBoard.Lib.Arrangement
import Mathlib.Algebra.Ring.Int.Defs
import Mathlib.Algebra.Ring.Nat

/-!
# Rows of the store

One structure per table of the schema, with the columns the board program reads or writes.
-/

namespace HerdrBoard.Core

open Lib

/-- Durable launch inputs of a run, fixed when it is enqueued. -/
structure ExecutionSpec where
  argv : List String
  env : List (String × String)
  agentKind : Option String
  initialPrompt : Option String
  systemPrompt : Option String
  deriving DecidableEq, Repr

structure Project where
  id : Int
  scopePath : Option String
  archivedAt : Option String
  deriving DecidableEq, Repr

structure Board where
  id : Int
  projectId : Int
  name : String
  archivedAt : Option String
  deriving DecidableEq, Repr

/-- A pipeline stage. -/
structure Column where
  id : Int
  boardId : Int
  name : String
  position : Int
  systemPrompt : Option String
  trigger : Trigger
  onSuccessColumnId : Option Int
  onFailColumnId : Option Int
  freshSession : Bool
  harnessOverride : Option String
  modelOverride : Option String
  effortOverride : Option String
  permissionOverride : Option String
  timeoutMinutes : Option Int
  deriving DecidableEq, Repr

/-- A unit of work. -/
structure Card where
  id : Int
  boardId : Int
  columnId : Int
  position : Int
  title : String
  description : String
  harness : String
  model : Option String
  effort : Option Effort
  permissionMode : Option String
  /-- herdr session name; `none` is the daemon's default session. -/
  session : Option String
  spaceKind : SpaceKind
  spaceRef : Option String
  spaceCwd : Option String
  status : CardStatus
  awaitingReason : Option AwaitingReason
  /-- Harness conversation id, distinct from `session`. -/
  sessionId : Option String
  createdAt : String
  updatedAt : String
  archivedAt : Option String
  deriving DecidableEq, Repr

/-- A timestamped note; author is `user`, `agent:<run_id>` or `system`. -/
structure Comment where
  id : Int
  cardId : Int
  author : String
  body : String
  createdAt : String
  deletedAt : Option String
  deriving DecidableEq, Repr

/-- One snapshot in a comment's audit trail. -/
structure CommentHistory where
  id : Int
  commentId : Int
  cardId : Int
  author : String
  body : String
  createdAt : String
  deletedAt : Option String
  deriving DecidableEq, Repr

/-- One agent execution of a card in a column. -/
structure Run where
  id : Int
  cardId : Int
  columnId : Int
  harness : String
  argv : List String
  promptSnapshot : String
  systemPromptSnapshot : Option String
  launchSpec : Option ExecutionSpec
  herdrWorkspaceId : Option String := none
  herdrPaneId : Option String := none
  herdrAnchorPaneId : Option String := none
  /-- Harness conversation id, distinct from `session`. -/
  sessionId : Option String
  session : Option String
  startedAt : Option String := none
  timeoutDeadlineAtMs : Option Int := none
  timeoutPausedAtMs : Option Int := none
  endedAt : Option String := none
  outcome : Option RunOutcome := none
  resultSummary : Option String := none
  deriving DecidableEq, Repr

/-- `ended_at IS NULL`. -/
def Run.isOpen (r : Run) : Bool := r.endedAt.isNone

/-- `started_at IS NOT NULL AND ended_at IS NULL`. -/
def Run.isActive (r : Run) : Bool := r.startedAt.isSome && r.endedAt.isNone

/-- `started_at IS NULL AND ended_at IS NULL`. -/
def Run.isQueued (r : Run) : Bool := r.startedAt.isNone && r.endedAt.isNone

/-- Typed identity of a serialized execution space. -/
structure SpaceKey where
  session : Option String
  kind : SpaceKind
  reference : Option String
  deriving DecidableEq, Repr

def SpaceKey.fromCard (card : Card) : SpaceKey where
  session := card.session
  kind := card.spaceKind
  reference := card.spaceRef

instance : Keyed Project := ⟨Project.id⟩
instance : Keyed Board := ⟨Board.id⟩
instance : Keyed Comment := ⟨Comment.id⟩
instance : Keyed CommentHistory := ⟨CommentHistory.id⟩
instance : Keyed Run := ⟨Run.id⟩

/-- Columns are arranged on their board. -/
instance : Placed Column where
  key := Column.id
  group := Column.boardId
  position := Column.position
  setPosition i c := { c with position := i }
  key_setPosition _ _ := rfl
  group_setPosition _ _ := rfl
  position_setPosition _ _ := rfl

/-- Cards are arranged in their column. -/
instance : Placed Card where
  key := Card.id
  group := Card.columnId
  position := Card.position
  setPosition i c := { c with position := i }
  key_setPosition _ _ := rfl
  group_setPosition _ _ := rfl
  position_setPosition _ _ := rfl

section Keys

variable (p : Project) (b : Board) (l : Column) (c : Card) (m : Comment)
    (h : CommentHistory) (r : Run)

@[simp] theorem key_project : Keyed.key p = p.id := rfl
@[simp] theorem key_board : Keyed.key b = b.id := rfl
@[simp] theorem key_column : Keyed.key l = l.id := rfl
@[simp] theorem key_card : Keyed.key c = c.id := rfl
@[simp] theorem key_comment : Keyed.key m = m.id := rfl
@[simp] theorem key_commentHistory : Keyed.key h = h.id := rfl
@[simp] theorem key_run : Keyed.key r = r.id := rfl
@[simp] theorem group_column : Placed.group l = l.boardId := rfl
@[simp] theorem group_card : Placed.group c = c.columnId := rfl
@[simp] theorem position_column : Placed.position l = l.position := rfl
@[simp] theorem position_card : Placed.position c = c.position := rfl

end Keys

end HerdrBoard.Core
