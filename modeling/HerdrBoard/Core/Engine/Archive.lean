import HerdrBoard.Core.Protocol

/-!
# Archive decisions
-/

namespace HerdrBoard.Core

inductive BoardArchiveRejection where
  | openRun (boardId : Int)
  deriving DecidableEq, Repr

def BoardArchiveRejection.message : BoardArchiveRejection → String
  | .openRun boardId =>
      s!"board {boardId} has an open run and cannot be archived; finish or cancel the run first"

inductive ProjectArchiveRejection where
  | globalProject
  | activeBoards (count : Nat)
  | openRun
  deriving DecidableEq, Repr

def ProjectArchiveRejection.message : ProjectArchiveRejection → String
  | .globalProject => "the Global project cannot be archived"
  | .activeBoards count =>
      s!"project has {count} active board(s); archive every board first with " ++
        "`board board archive <id>`"
  | .openRun => "project has an open run and cannot be archived; finish or cancel the run first"

def decideBoardArchive (boardId : Int) (alreadyArchived hasOpenRun targetArchived : Bool) :
    Except BoardArchiveRejection Unit :=
  if alreadyArchived = targetArchived then .ok ()
  else if targetArchived ∧ hasOpenRun then .error (.openRun boardId)
  else .ok ()

def decideProjectArchive (isGlobal alreadyArchived : Bool) (unarchivedBoardCount : Nat)
    (hasOpenRun targetArchived : Bool) : Except ProjectArchiveRejection Unit :=
  if alreadyArchived = targetArchived then .ok ()
  else if ¬targetArchived then .ok ()
  else if isGlobal then .error .globalProject
  else if unarchivedBoardCount > 0 then .error (.activeBoards unarchivedBoardCount)
  else if hasOpenRun then .error .openRun
  else .ok ()

end HerdrBoard.Core
