import HerdrBoard.Core.Db.BoardsColumns
import HerdrBoard.Core.Engine.Archive

/-!
# Projects, their boards, the persistent selection and recency
-/

namespace HerdrBoard.Core

open Lib

def archivedProjectMessage (project : Project) : String :=
  "archived project must be restored first: `board project restore " ++
    project.scopePath.getD "(Global)" ++ "`"

def archivedBoardMessage (boardId : Int) : String :=
  s!"archived board must be restored first: `board board restore {boardId}`"

namespace Db

variable (db : Db)

def projectByScope (scopePath : String) : Option Project :=
  (db.projects.select fun p => p.scopePath == some scopePath).head?

/-- The boards of a project that are not archived, by id. -/
def activeBoards (projectId : Int) : List Board :=
  db.boards.select fun b => b.projectId == projectId && b.archivedAt.isNone

def boardHasOpenRun (boardId : Int) : Bool :=
  db.runs.rows.any fun r => r.isOpen && (db.card? r.cardId).any fun c => c.boardId == boardId

def projectHasOpenRun (projectId : Int) : Bool :=
  db.runs.rows.any fun r => r.isOpen && (db.card? r.cardId).any fun c =>
    (db.board? c.boardId).any fun b => b.projectId == projectId

def selectedBoardIdFor (projectId : Int) : Option Int :=
  (db.boardSelection.find? fun s => s.1 == projectId).map Prod.snd

def recentProjectIds : List Int :=
  (db.projectRecents.insertionSort fun a b => a.2 ≤ b.2).map Prod.fst

def recentBoardIds (projectId : Int) : List Int :=
  ((db.boardRecents.filter fun r => r.1 == projectId).insertionSort fun a b => a.2.2 ≤ b.2.2).map
    fun r => r.2.1

end Db

/-! ## Seeding and selection -/

def insertBoard (row : Int → Board) (hkey : ∀ k, Keyed.key (row k) = k := by exact fun _ => rfl) :
    StoreM Int := do
  let db ← get
  exec fun t => { t with boards := t.boards.insert row hkey }
  pure db.boards.nextKey

def insertProject (row : Int → Project)
    (hkey : ∀ k, Keyed.key (row k) = k := by exact fun _ => rfl) : StoreM Int := do
  let db ← get
  exec fun t => { t with projects := t.projects.insert row hkey }
  pure db.projects.nextKey

/-- The first column of an empty board. -/
def seedTodoTx (boardId : Int) : StoreM Unit := do
  let db ← get
  if (db.columns.select fun c => c.boardId == boardId).isEmpty then
    let _ ← insertColumn (newColumn { name := "Todo" } boardId 0 none none)
    pure ()
  else pure ()

def writeSelectionTx (projectId boardId : Int) : StoreM Unit := do
  exec fun t => { t with selection := some projectId }
  exec fun t =>
    { t with
      boardSelection :=
        if t.boardSelection.any fun s => s.1 == projectId then
          t.boardSelection.map fun s => if s.1 == projectId then (projectId, boardId) else s
        else t.boardSelection ++ [(projectId, boardId)] }

/-- `id` first, then the others, at most three, ranked from 0. -/
def touchRecency (ids : List Int) (id : Int) : List (Int × Int) :=
  (((id :: ids.filter (· != id)).take 3).zipIdx).map fun p => (p.1, (p.2 : Int))

def touchProjectRecencyTx (projectId : Int) : StoreM Unit := do
  let db ← get
  exec fun t => { t with projectRecents := touchRecency db.recentProjectIds projectId }

def touchBoardRecencyTx (projectId boardId : Int) : StoreM Unit := do
  let db ← get
  exec fun t =>
    { t with
      boardRecents := t.boardRecents.filter (fun r => r.1 != projectId) ++
        (touchRecency (db.recentBoardIds projectId) boardId).map fun r => (projectId, r.1, r.2) }

/-! ## Creating and selecting -/

def insertProjectRow (scopePath : String) : StoreM Int :=
  insertProject fun id => { id, scopePath := some scopePath, archivedAt := none }

/-- A project with its `main` board and seed column. -/
def insertProjectWithBoard (insertRow : StoreM Int) : StoreM (Int × Int) := do
  let projectId ← insertRow
  let boardId ← insertBoard fun id => { id, projectId, name := "main", archivedAt := none }
  seedTodoTx boardId
  pure (projectId, boardId)

def getOrCreateProject (scopePath : String) : StoreM Project := do
  refuse (isBlank scopePath) (.badRequest "scope_path must not be empty")
  let db ← get
  match db.projectByScope scopePath with
  | some project => pure project
  | none => do
      let ids ← transaction (insertProjectWithBoard (insertProjectRow scopePath))
      getProject ids.1

def mainBoard (projectId : Int) : StoreM Board := do
  let db ← get
  match (db.activeBoards projectId).find? fun b => Tables.noCase b.name == Tables.noCase "main" with
  | some board => pure board
  | none => okOr (db.activeBoards projectId).head? (.notFound s!"project {projectId} has no boards")

/-- The active one among the board's three most recent siblings. -/
def Db.recentActiveBoard (db : Db) (board : Board) : Option Board :=
  (((db.recentBoardIds board.projectId).take 3).filter (· != board.id)).findSome? fun id =>
    (db.board? id).filter fun b => b.archivedAt.isNone

def projectContextBoard (projectId : Int) : StoreM Board := do
  let db ← get
  match db.selectedBoardIdFor projectId with
  | none => mainBoard projectId
  | some id => do
      let board ← getBoard id
      if board.archivedAt.isNone then pure board
      else match db.recentActiveBoard board with
        | some b => pure b
        | none => mainBoard projectId

/-- Persist a project and one of its boards as the context. -/
def selectTx (projectId boardId : Int) : StoreM Unit := do
  writeSelectionTx projectId boardId
  touchProjectRecencyTx projectId
  touchBoardRecencyTx projectId boardId

def openBoard (scopePath : String) : StoreM Board := do
  let project ← getOrCreateProject scopePath
  projectContextBoard project.id

def createProjectContext (scopePath : String) : StoreM (Project × Board) := do
  refuse (isBlank scopePath) (.badRequest "scope_path must not be empty")
  let ids ← transaction do
    let ids ← insertProjectWithBoard (rejectDuplicate
      s!"project {debugStr scopePath} already exists; select it with `board project select {scopePath}`"
      (insertProjectRow scopePath))
    selectTx ids.1 ids.2
    pure ids
  let project ← getProject ids.1
  let board ← getBoard ids.2
  pure (project, board)

def openProjectContext (scopePath : String) : StoreM (Project × Board) := do
  refuse (isBlank scopePath) (.badRequest "scope_path must not be empty")
  let project ← getOrCreateProject scopePath
  let board ← projectContextBoard project.id
  transaction (selectTx project.id board.id)
  pure (project, board)

def requireProjectByScope (scopePath : String) : StoreM Project := do
  let db ← get
  okOr (db.projectByScope scopePath) (.notFound
    s!"project {debugStr scopePath} not found; create it with `board project create {scopePath}`")

def selectedBoard (project : Project) : Option Int → StoreM Board
  | none => projectContextBoard project.id
  | some id => do
      let board ← getBoard id
      refuse (board.projectId ≠ project.id) (.invalidState
        s!"board {id} belongs to project {board.projectId}, selected project is {project.id}")
      pure board

def selectProjectByScope (scopePath : String) (boardId : Option Int) :
    StoreM (Project × Board) := do
  let project ← requireProjectByScope scopePath
  let board ← selectedBoard project boardId
  transaction (selectTx project.id board.id)
  pure (project, board)

def selectBoard (boardId : Int) : StoreM (Project × Board) := do
  let board ← getBoard boardId
  let project ← getProject board.projectId
  transaction (selectTx project.id board.id)
  pure (project, board)

def createBoard (projectId : Int) (name : String) : StoreM Board := do
  refuse (isBlank name) (.badRequest "board name must not be empty")
  let project ← getProject projectId
  refuse project.archivedAt.isSome (.invalidState (archivedProjectMessage project))
  let boardId ← transaction do
    let boardId ← rejectDuplicate (duplicateBoard name)
      (insertBoard fun id => { id, projectId, name, archivedAt := none })
    seedTodoTx boardId
    selectTx projectId boardId
    pure boardId
  getBoard boardId

/-! ## Archiving -/

def Db.isActiveProject (db : Db) (projectId : Int) : Bool :=
  (db.project? projectId).all (fun p => p.archivedAt.isNone) && !(db.activeBoards projectId).isEmpty

/-- Active projects by path, case-insensitively, the Global project last. -/
def Db.projectsByPath (db : Db) (conn : Conn) : List Project :=
  (db.projects.select fun p => p.archivedAt.isNone).insertionSort fun a b =>
    a.scopePath.isSome ∧ b.scopePath.isNone ∨
      a.scopePath.isSome = b.scopePath.isSome ∧
        conn.toLowercase (a.scopePath.getD "") ≤ conn.toLowercase (b.scopePath.getD "")

def Db.findActiveProjectFallback (db : Db) (conn : Conn) : Option Int :=
  (db.recentProjectIds ++ (db.projectsByPath conn).map Project.id).find? db.isActiveProject

/-- Select the fallback project's first active board, or nothing. -/
def selectFallbackProject (conn : Conn) : StoreM Unit := do
  let db ← get
  match db.findActiveProjectFallback conn with
  | none => exec fun t => { t with selection := none }
  | some pid =>
      match (db.activeBoards pid).head? with
      | some board => do
          writeSelectionTx pid board.id
          touchProjectRecencyTx pid
          touchBoardRecencyTx pid board.id
      | none => exec fun t => { t with selection := none }

/-- A board of the project to remember instead of the archived one. -/
def Db.fallbackBoard (db : Db) (projectId boardId : Int) : Option Int :=
  match (db.recentBoardIds projectId).find? fun id =>
      id != boardId && (db.board? id).all fun b => b.archivedAt.isNone with
  | some id => some id
  | none => (db.activeBoards projectId).head?.map Board.id

/-- Move the selection off a board that was just archived. -/
def reselectAfterArchive (conn : Conn) (projectId boardId : Int) : StoreM Unit := do
  let db ← get
  if db.selectedBoardIdFor projectId = some boardId then
    match db.fallbackBoard projectId boardId with
    | some fallback => do
        writeSelectionTx projectId fallback
        touchBoardRecencyTx projectId fallback
        touchProjectRecencyTx projectId
    | none => do
        exec fun t => { t with boardSelection := t.boardSelection.filter fun s => s.1 != projectId }
        if db.selection = some projectId then selectFallbackProject conn else pure ()
  else pure ()

def setBoardArchived (conn : Conn) (boardId : Int) (archived : Bool) : StoreM Board := do
  let board ← getBoard boardId
  if board.archivedAt.isSome = archived then pure board
  else do
    transaction do
      let db ← get
      fromExcept ((decideBoardArchive boardId board.archivedAt.isSome (db.boardHasOpenRun boardId)
        archived).mapError fun e => .invalidState e.message)
      exec fun t =>
        { t with
          boards := t.boards.update (fun b => b.id == boardId) fun b =>
            { b with archivedAt := if archived then some conn.now else none } }
      if archived then reselectAfterArchive conn board.projectId boardId else pure ()
    getBoard boardId

def setProjectArchived (conn : Conn) (scopePath : String) (archived : Bool) : StoreM Project := do
  let project ← requireProjectByScope scopePath
  if project.archivedAt.isSome = archived then pure project
  else do
    transaction do
      let db ← get
      fromExcept ((decideProjectArchive project.scopePath.isNone project.archivedAt.isSome
        (db.activeBoards project.id).length (db.projectHasOpenRun project.id) archived).mapError
          fun e => .invalidState e.message)
      exec fun t =>
        { t with
          projects := t.projects.update (fun p => p.id == project.id) fun p =>
            { p with archivedAt := if archived then some conn.now else none } }
      if archived ∧ db.selection = some project.id then selectFallbackProject conn else pure ()
    getProject project.id

end HerdrBoard.Core
