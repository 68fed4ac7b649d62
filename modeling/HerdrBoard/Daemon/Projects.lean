import HerdrBoard.Core.Db.Projects
import HerdrBoard.Lib.Transition

/-!
# Project and board requests

Whole requests, each run to its end before the next one starts. `open` and `select` check in a lock
scope of their own before they write. -/

open Lib HerdrBoard.Core

namespace HerdrBoard.Daemon

def archivedScopeMessage (scopePath : String) : String :=
  "archived project must be restored first: `board project restore " ++ scopePath ++ "`"

def projectOpenCheck (scopePath : String) : StoreM Unit := do
  let db ← get
  refuse ((db.projectByScope scopePath).any fun p => p.archivedAt.isSome)
    (.invalidState (archivedScopeMessage scopePath))

def projectOpen (scopePath : String) : StoreM (Project × Board) := do
  projectOpenCheck scopePath
  openProjectContext scopePath

/-- `validated` is what the file system says of the directory. -/
def projectCreate (validated : Except Error Unit) (scopePath : String) :
    StoreM (Project × Board) := do
  fromExcept validated
  createProjectContext scopePath

def boardNotArchived : Option Int → StoreM Unit
  | none => pure ()
  | some id => do
      let board ← getBoard id
      refuse board.archivedAt.isSome (.invalidState (archivedBoardMessage id))

def projectSelectCheck (scopePath : String) (boardId : Option Int) : StoreM Unit := do
  let project ← requireProjectByScope scopePath
  refuse project.archivedAt.isSome (.invalidState (archivedScopeMessage scopePath))
  boardNotArchived boardId

def projectSelect (scopePath : String) (boardId : Option Int) : StoreM (Project × Board) := do
  projectSelectCheck scopePath boardId
  selectProjectByScope scopePath boardId

def boardSelectCheck (boardId : Int) : StoreM Unit := do
  let board ← getBoard boardId
  refuse board.archivedAt.isSome (.invalidState (archivedBoardMessage board.id))
  let project ← getProject board.projectId
  refuse project.archivedAt.isSome (.invalidState (archivedProjectMessage project))

def boardSelect (boardId : Int) : StoreM (Project × Board) := do
  boardSelectCheck boardId
  selectBoard boardId

inductive PlaceRequest where
  | projectOpen (scopePath : String)
  | projectCreate (validated : Except Error Unit) (scopePath : String)
  | projectSelect (scopePath : String) (boardId : Option Int)
  | projectArchive (scopePath : String) (archived : Bool)
  | boardOpen (scopePath : String)
  | boardCreate (projectId : Int) (name : String)
  | boardSelect (boardId : Int)
  | boardArchive (boardId : Int) (archived : Bool)

def selected (pair : Project × Board) : Option (Int × Int) := some (pair.1.id, pair.2.id)

/-- Serve a request. A request that selects answers with the project and the board it selected. -/
def servePlace (conn : Conn) : PlaceRequest → StoreM (Option (Int × Int))
  | .projectOpen scopePath => do
      let pair ← projectOpen scopePath
      pure (selected pair)
  | .projectCreate validated scopePath => do
      let pair ← projectCreate validated scopePath
      pure (selected pair)
  | .projectSelect scopePath boardId => do
      let pair ← projectSelect scopePath boardId
      pure (selected pair)
  | .projectArchive scopePath archived => do
      let _ ← setProjectArchived conn scopePath archived
      pure none
  | .boardOpen scopePath => do
      let _ ← openBoard scopePath
      pure none
  | .boardCreate projectId name => do
      let board ← createBoard projectId name
      pure (some (projectId, board.id))
  | .boardSelect boardId => do
      let pair ← boardSelect boardId
      pure (selected pair)
  | .boardArchive boardId archived => do
      let _ ← setBoardArchived conn boardId archived
      pure none

/-- Project and board requests one at a time on a fresh database. -/
def places : System Db (Conn × PlaceRequest) where
  init db := db = Db.fresh
  step db r db' := db' = finalState (servePlace r.1 r.2 db)

end HerdrBoard.Daemon
