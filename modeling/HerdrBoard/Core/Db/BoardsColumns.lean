import HerdrBoard.Core.Store
import HerdrBoard.Core.Text

/-!
# Boards and columns
-/

namespace HerdrBoard.Core

open Lib

/-- The preserved Global board id and legacy protocol default. -/
def BOARD_ID : Int := 1

/-- A refused UNIQUE key becomes a bad request; every other failure stays what it is. -/
def rejectDuplicate {α : Type} (duplicate : String) (x : StoreM α) : StoreM α := fun db =>
  match x db with
  | .error (.sqlite .unique) db => .error (.badRequest duplicate) db
  | r => r

def duplicateColumn (name : String) : String :=
  s!"column {debugStr name} already exists on this board; pick another name"

def duplicateBoard (name : String) : String :=
  s!"board {debugStr name} already exists in this project; pick another name"

namespace Db

variable (db : Db)

def project? (id : Int) : Option Project := db.projects.find? id
def board? (id : Int) : Option Board := db.boards.find? id
def column? (id : Int) : Option Column := db.columns.find? id
def card? (id : Int) : Option Card := db.cards.find? id
def run? (id : Int) : Option Run := db.runs.find? id

def listColumns (boardId : Int) : List Column := db.columns.ordered fun c => c.boardId == boardId

end Db

def getProject (id : Int) : StoreM Project := do
  let db ← get
  okOr (db.project? id) (.notFound s!"project {id}")

def getBoard (id : Int) : StoreM Board := do
  let db ← get
  okOr (db.board? id) (.notFound s!"board {id}")

def requireColumn (id : Int) : StoreM Column := do
  let db ← get
  okOr (db.column? id) (.notFound s!"column {id}")

def renameBoard (id : Int) (name : String) : StoreM Board := do
  refuse (isBlank name) (.badRequest "board name must not be empty")
  let _ ← getBoard id
  rejectDuplicate (duplicateBoard name)
    (exec fun t => { t with boards := t.boards.update (fun b => b.id == id) fun b =>
      { b with name := name } })
  getBoard id

/-- A numeric reference is an id and must belong to the project; anything else matches the board
name case-insensitively. -/
def resolveBoard (conn : Conn) (projectId : Int) (reference : String) : StoreM Board := do
  let db ← get
  let lower := conn.toLowercase reference
  let named := okOr (db.boards.rows.find? fun b => b.projectId == projectId && Tables.noCase
    b.name == lower.toList) (.notFound s!"no board {debugStr reference} in this project")
  match parseI64 reference.toList with
  | some id => do
      let board ← getBoard id
      if board.projectId = projectId then pure board else named
  | none => named

/-! ## Columns -/

/-- The default (first) column of a board. -/
def defaultColumnId (boardId : Int) : StoreM Int := do
  let db ← get
  let first ← okOr (db.listColumns boardId).head? (.notFound "no columns")
  pure first.id

def validateColumnTarget (boardId : Int) : Option Int → StoreM Unit
  | none => pure ()
  | some target => do
      let column ← requireColumn target
      refuse (column.boardId ≠ boardId)
        (.invalidState s!"column {target} belongs to board {column.boardId}, expected {boardId}")

def validateColumnTargets (boardId : Int) (onSuccess onFail : Option Int) : StoreM Unit := do
  validateColumnTarget boardId onSuccess
  validateColumnTarget boardId onFail

/-- `position.max(0) as usize`, at most `len`; the end when absent. -/
def clampIndex (position : Option Int) (len : Nat) : Nat :=
  min ((position.map fun p => (max p 0).toNat).getD len) len

/-- Move a column to `position` and compact the whole board's ordering. -/
def reorderColumn (id position : Int) : StoreM (List Column) := do
  let column ← requireColumn id
  transaction do
    let db ← get
    let ids := db.columns.others column.boardId id
    setColumnPositions (ids.insertIdx (clampIndex (some position) ids.length) id)
  let db ← get
  pure (db.listColumns column.boardId)

/-- The row `create_column` inserts. -/
def newColumn (p : ColumnCreateParams) (boardId position : Int)
    (onSuccess onFail : Option Int) (id : Int) : Column where
  id
  boardId
  name := p.name
  position
  systemPrompt := p.systemPrompt
  trigger := p.trigger.getD .manual
  onSuccessColumnId := onSuccess
  onFailColumnId := onFail
  freshSession := p.freshSession.getD false
  harnessOverride := p.harnessOverride
  modelOverride := p.modelOverride
  effortOverride := p.effortOverride
  permissionOverride := p.permissionOverride
  timeoutMinutes := p.timeoutMinutes

def createColumn (p : ColumnCreateParams) : StoreM Column := do
  let boardId := p.boardId.getD BOARD_ID
  let _ ← getBoard boardId
  validateColumnTargets boardId p.onSuccessColumnId p.onFailColumnId
  let db ← get
  let id ← rejectDuplicate (duplicateColumn p.name)
    (insertColumn (newColumn p boardId (db.columns.endPosition boardId) p.onSuccessColumnId
      p.onFailColumnId))
  match p.position with
  | some pos =>
      let _ ← reorderColumn id pos
      requireColumn id
  | none => requireColumn id

/-- The columns of `c` that `column.update` writes. -/
def patchColumn (p : ColumnUpdateParams) (c : Column) : Column :=
  { c with
    name := p.name.getD c.name
    systemPrompt := p.systemPrompt.apply c.systemPrompt
    trigger := p.trigger.getD c.trigger
    onSuccessColumnId := p.onSuccessColumnId.apply c.onSuccessColumnId
    onFailColumnId := p.onFailColumnId.apply c.onFailColumnId
    freshSession := p.freshSession.getD c.freshSession
    harnessOverride := p.harnessOverride.apply c.harnessOverride
    modelOverride := p.modelOverride.apply c.modelOverride
    effortOverride := p.effortOverride.apply c.effortOverride
    permissionOverride := p.permissionOverride.apply c.permissionOverride
    timeoutMinutes := p.timeoutMinutes.apply c.timeoutMinutes }

/-- Every field `update_column` writes, taken from `from`. -/
def Column.withSettingsOf (source c : Column) : Column :=
  { c with
    name := source.name
    systemPrompt := source.systemPrompt
    trigger := source.trigger
    onSuccessColumnId := source.onSuccessColumnId
    onFailColumnId := source.onFailColumnId
    freshSession := source.freshSession
    harnessOverride := source.harnessOverride
    modelOverride := source.modelOverride
    effortOverride := source.effortOverride
    permissionOverride := source.permissionOverride
    timeoutMinutes := source.timeoutMinutes }

def updateColumn (p : ColumnUpdateParams) : StoreM Column := do
  let current ← requireColumn p.id
  let c := patchColumn p current
  validateColumnTargets c.boardId c.onSuccessColumnId c.onFailColumnId
  rejectDuplicate (duplicateColumn c.name)
    (updateColumns (fun r => r.id == c.id) (Column.withSettingsOf c))
  match p.position with
  | some pos =>
      let _ ← reorderColumn c.id pos
      requireColumn c.id
  | none => requireColumn c.id

/-! ## Templates -/

/-- A target used by `apply_template_columns_uow`: a column of the board, or one of the
batch by index. -/
inductive ColumnTarget where
  | existing (id : Int)
  | created (index : Nat)
  deriving DecidableEq, Repr

structure ColumnWiring where
  columnIndex : Nat
  onSuccess : Option ColumnTarget
  onFail : Option ColumnTarget
  deriving DecidableEq, Repr

def checkTemplateSpecs (boardId : Int) : List ColumnCreateParams → StoreM Unit
  | [] => pure ()
  | spec :: specs => do
      refuse (spec.boardId.getD BOARD_ID ≠ boardId)
        (.invalidState s!"column belongs to another board, expected {boardId}")
      refuse spec.position.isSome (.badRequest "template columns cannot specify positions")
      checkTemplateSpecs boardId specs

def insertTemplateColumns (boardId : Int) : List ColumnCreateParams → StoreM (List Int)
  | [] => pure []
  | spec :: specs => do
      let db ← get
      let id ← rejectDuplicate (duplicateColumn spec.name)
        (insertColumn (newColumn spec boardId (db.columns.endPosition boardId) none none))
      let ids ← insertTemplateColumns boardId specs
      pure (id :: ids)

def resolveTarget (boardId : Int) (ids : List Int) : Option ColumnTarget → StoreM (Option Int)
  | none => pure none
  | some (.created index) => do
      let id ← okOr ids[index]? (.badRequest s!"template target index {index} is out of range")
      pure (some id)
  | some (.existing id) => do
      let column ← requireColumn id
      refuse (column.boardId ≠ boardId)
        (.invalidState s!"column {id} belongs to board {column.boardId}, expected {boardId}")
      pure (some id)

def wireColumns (boardId : Int) (ids : List Int) : List ColumnWiring → StoreM Unit
  | [] => pure ()
  | wire :: wiring => do
      let columnId ← okOr ids[wire.columnIndex]?
        (.badRequest s!"template source index {wire.columnIndex} is out of range")
      let onSuccess ← resolveTarget boardId ids wire.onSuccess
      let onFail ← resolveTarget boardId ids wire.onFail
      updateColumns (fun c => c.id == columnId) fun c =>
        { c with onSuccessColumnId := onSuccess, onFailColumnId := onFail }
      wireColumns boardId ids wiring

def applyTemplateColumnsUow (boardId : Int) (specs : List ColumnCreateParams)
    (wiring : List ColumnWiring) : StoreM (List Column) := do
  let _ ← getBoard boardId
  checkTemplateSpecs boardId specs
  transaction do
    let ids ← insertTemplateColumns boardId specs
    wireColumns boardId ids wiring
  let db ← get
  pure (db.listColumns boardId)

end HerdrBoard.Core
