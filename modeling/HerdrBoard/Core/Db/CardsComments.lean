import HerdrBoard.Core.Db.BoardsColumns

/-!
# Cards and comments
-/

namespace HerdrBoard.Core

open Lib

/-- Harness stored on new cards when the caller omits one. -/
def DEFAULT_HARNESS : String := "pi"

/-- All values needed to insert one queued run. -/
structure EnqueueRun where
  cardId : Int
  columnId : Int
  harness : String
  argv : List String
  promptSnapshot : String
  systemPromptSnapshot : Option String
  launchSpec : Option ExecutionSpec
  sessionId : Option String
  session : Option String
  deriving DecidableEq, Repr

namespace Db

variable (db : Db)

def listCardsInColumn (columnId : Int) : List Card :=
  db.cards.ordered fun c => c.columnId == columnId

def listRuns (cardId : Int) : List Run := db.runs.select fun r => r.cardId == cardId

/-- The card's open (queued or started, not ended) run, if any. -/
def openRunForCard (cardId : Int) : Option Run :=
  (db.runs.select fun r => r.cardId == cardId && r.isOpen).getLast?

/-- The card's active (started, not ended) run, if any. -/
def activeRunForCard (cardId : Int) : Option Run :=
  (db.runs.select fun r => r.cardId == cardId && r.isActive).getLast?

/-- The card's comments that are not deleted, `ORDER BY created_at, id`. -/
def listComments (cardId : Int) : List Comment :=
  (db.comments.select fun m => m.cardId == cardId && m.deletedAt.isNone).insertionSort
    fun a b => a.createdAt ≤ b.createdAt

end Db

def requireCard (id : Int) : StoreM Card := do
  let db ← get
  okOr (db.card? id) (.notFound s!"card {id}")

def getRun (id : Int) : StoreM Run := do
  let db ← get
  okOr (db.run? id) (.notFound s!"run {id}")

/-! ## Positions -/

/-- (Re)place `id` within `targetColumn` at `position` (append if absent),
zero-basing the column. -/
def placeCardInColumnTx (id targetColumn : Int) (position : Option Int) : StoreM Unit := do
  let db ← get
  let ids := db.cards.others targetColumn id
  setCardPositions (ids.insertIdx (clampIndex position ids.length) id)

def renumberColumnCardsTx (columnId : Int) : StoreM Unit := do
  let db ← get
  setCardPositions (db.cards.slots columnId)

/-! ## Enqueueing inside a transaction -/

/-- The row of a queued run. -/
def queuedRun (cardId : Int) (p : EnqueueRun) (id : Int) : Run where
  id
  cardId
  columnId := p.columnId
  harness := p.harness
  argv := p.argv
  promptSnapshot := p.promptSnapshot
  systemPromptSnapshot := p.systemPromptSnapshot
  launchSpec := p.launchSpec
  sessionId := p.sessionId
  session := p.session

/-- Insert a queued run and update its card while an enclosing transaction is active. -/
def enqueueRunTx (conn : Conn) (cardId : Int) (p : EnqueueRun) : StoreM Int := do
  let id ← insertRun (queuedRun cardId p)
  lifecycleFault conn .enqueueAfterRunInsert
  let changed ← updateCards (fun c => c.id == cardId) fun c =>
    { c with status := .queued, awaitingReason := none, sessionId := p.sessionId <|> c.sessionId,
             updatedAt := conn.now }
  refuse (changed ≠ 1) (.notFound s!"card {cardId}")
  pure id

/-! ## Creating -/

/-- The row `create_card` inserts. -/
def newCard (conn : Conn) (p : CardCreateParams) (boardId columnId position : Int) (id : Int) :
    Card where
  id
  boardId
  columnId
  position
  title := p.title
  description := p.description.getD ""
  harness := p.harness.getD DEFAULT_HARNESS
  model := p.model
  effort := p.effort
  permissionMode := p.permissionMode
  session := p.session
  spaceKind := p.spaceKind.getD .workspace
  spaceRef := p.spaceRef
  spaceCwd := p.spaceCwd
  status := .idle
  awaitingReason := none
  sessionId := none
  createdAt := conn.now
  updatedAt := conn.now
  archivedAt := none

/-- Move a card within its board, compacting the source and target columns. -/
def moveCard (conn : Conn) (id targetColumn : Int) (position : Option Int) : StoreM Card := do
  let card ← requireCard id
  let target ← requireColumn targetColumn
  refuse (target.boardId ≠ card.boardId) (.invalidState
    s!"column {targetColumn} belongs to board {target.boardId}, card {id} belongs to board {card.boardId}")
  transaction do
    let _ ← updateCards (fun c => c.id == id) fun c =>
        { c with columnId := targetColumn, updatedAt := conn.now }
    placeCardInColumnTx id targetColumn position
    if card.columnId ≠ targetColumn then renumberColumnCardsTx card.columnId else pure ()
  requireCard id

def createCard (conn : Conn) (p : CardCreateParams) : StoreM Card := do
  let boardId := p.boardId.getD BOARD_ID
  let _ ← getBoard boardId
  let columnId ← match p.columnId with
    | some c => pure c
    | none => defaultColumnId boardId
  let column ← requireColumn columnId
  refuse (column.boardId ≠ boardId)
    (.invalidState s!"column {columnId} belongs to board {column.boardId}, expected {boardId}")
  let db ← get
  let id ← insertCard (newCard conn p boardId columnId (db.cards.endPosition columnId))
  match p.position with
  | some pos =>
      let _ ← moveCard conn id columnId (some pos)
      requireCard id
  | none => requireCard id

/-- Create a card and its initial queued run in one transaction. -/
def createCardAndEnqueueUow (conn : Conn) (p : CardCreateParams) (run : EnqueueRun) :
    StoreM (Card × Run) := do
  let boardId := p.boardId.getD BOARD_ID
  let _ ← getBoard boardId
  let default ← defaultColumnId boardId
  let columnId := p.columnId.getD default
  let column ← requireColumn columnId
  refuse (column.boardId ≠ boardId)
    (.invalidState s!"column {columnId} belongs to board {column.boardId}, expected {boardId}")
  refuse (run.columnId ≠ columnId)
    (.invalidState "queued run column does not match new card column")
  let db ← get
  let ids ← transaction do
    let cardId ← insertCard (newCard conn p boardId columnId (db.cards.endPosition columnId))
    if p.position.isSome then placeCardInColumnTx cardId columnId p.position else pure ()
    let runId ← enqueueRunTx conn cardId run
    pure (cardId, runId)
  let card ← requireCard ids.1
  let run ← getRun ids.2
  pure (card, run)

/-- The row `duplicate_card` inserts: the run configuration, none of the execution state. -/
def copyCard (conn : Conn) (card : Card) (position : Int) (id : Int) : Card where
  id
  boardId := card.boardId
  columnId := card.columnId
  position
  title := s!"{card.title} (copy)"
  description := card.description
  harness := card.harness
  model := card.model
  effort := card.effort
  permissionMode := card.permissionMode
  session := card.session
  spaceKind := card.spaceKind
  spaceRef := card.spaceRef
  spaceCwd := card.spaceCwd
  status := .idle
  awaitingReason := none
  sessionId := none
  createdAt := conn.now
  updatedAt := conn.now
  archivedAt := none

/-- Duplicate `id` into a fresh idle card inserted immediately below it. -/
def duplicateCard (conn : Conn) (id : Int) : StoreM Card := do
  let card ← requireCard id
  let copyId ← transaction do
    let db ← get
    let copyId ← insertCard (copyCard conn card (db.cards.endPosition card.columnId))
    placeCardInColumnTx copyId card.columnId (some (card.position + 1))
    pure copyId
  requireCard copyId

/-! ## Updating, archiving and deleting -/

/-- A harness change drops the settings the new harness cannot take. -/
def patchHarness (c : Card) : Option String → Card
  | none => c
  | some v =>
      if v = "pi" then { c with harness := v, permissionMode := none }
      else if v = "claude" ∧ (c.effort = some .off ∨ c.effort = some .minimal) then
        { c with harness := v, effort := none }
      else { c with harness := v }

/-- The card `card.update` writes. -/
def patchCard (p : CardUpdateParams) (card : Card) : Card :=
  let c := patchHarness card p.harness
  { c with
    title := p.title.getD c.title
    description := p.description.getD c.description
    model := p.model.apply c.model
    effort := p.effort.apply c.effort
    permissionMode := p.permissionMode.apply c.permissionMode
    session := p.session.apply c.session
    spaceKind := p.spaceKind.getD c.spaceKind
    spaceRef := p.spaceRef.apply c.spaceRef
    spaceCwd := p.spaceCwd.apply c.spaceCwd }

/-- Every field `update_card` writes, taken from `source`. -/
def Card.withSettingsOf (source c : Card) (now : String) : Card :=
  { c with
    title := source.title
    description := source.description
    harness := source.harness
    model := source.model
    effort := source.effort
    permissionMode := source.permissionMode
    session := source.session
    spaceKind := source.spaceKind
    spaceRef := source.spaceRef
    spaceCwd := source.spaceCwd
    updatedAt := now }

def updateCard (conn : Conn) (p : CardUpdateParams) : StoreM Card := do
  let current ← requireCard p.id
  let c := patchCard p current
  let _ ← updateCards (fun r => r.id == c.id) fun r => Card.withSettingsOf c r conn.now
  requireCard c.id

def setCardArchived (conn : Conn) (id : Int) (archived : Bool) : StoreM Card := do
  let _ ← requireCard id
  let _ ← updateCards (fun c => c.id == id) fun c =>
    { c with archivedAt := if archived then some conn.now else none, updatedAt := conn.now }
  requireCard id

def deleteCard (id : Int) : StoreM Unit := do
  let card ← requireCard id
  deleteCardRow id
  transaction (renumberColumnCardsTx card.columnId)

/-! ## Moving with a run, and across boards -/

def moveCardAndEnqueueUow (conn : Conn) (id targetColumn : Int) (position : Option Int)
    (run : EnqueueRun) : StoreM (Card × Run) := do
  let card ← requireCard id
  let target ← requireColumn targetColumn
  refuse (target.boardId ≠ card.boardId) (.invalidState
    s!"column {targetColumn} belongs to board {target.boardId}, card {id} belongs to board {card.boardId}")
  refuse (run.cardId ≠ id ∨ run.columnId ≠ targetColumn)
    (.invalidState "queued run does not match moved card and destination column")
  let db ← get
  refuse (db.openRunForCard id).isSome (.invalidState "card already has an open run")
  let runId ← transaction do
    let _ ← updateCards (fun c => c.id == id) fun c =>
        { c with columnId := targetColumn, updatedAt := conn.now }
    placeCardInColumnTx id targetColumn position
    if card.columnId ≠ targetColumn then renumberColumnCardsTx card.columnId else pure ()
    enqueueRunTx conn id run
  let card ← requireCard id
  let run ← getRun runId
  pure (card, run)

def transferCardAndEnqueueUow (conn : Conn) (id targetBoard targetColumn : Int)
    (position : Option Int) (run : EnqueueRun) : StoreM (Card × Run) := do
  let card ← requireCard id
  let _ ← getBoard targetBoard
  let target ← requireColumn targetColumn
  refuse (target.boardId ≠ targetBoard) (.invalidState
    s!"column {targetColumn} belongs to board {target.boardId}, declared destination board is {targetBoard}")
  refuse (run.cardId ≠ id ∨ run.columnId ≠ targetColumn)
    (.invalidState "queued run does not match moved card and destination column")
  let db ← get
  refuse (db.openRunForCard id).isSome (.invalidState "card already has an open run")
  let runId ← transaction do
    let _ ← updateCards (fun c => c.id == id) fun c =>
      { c with boardId := targetBoard, columnId := targetColumn, updatedAt := conn.now }
    placeCardInColumnTx id targetColumn position
    renumberColumnCardsTx card.columnId
    enqueueRunTx conn id run
  let card ← requireCard id
  let run ← getRun runId
  pure (card, run)

/-- Transfer a card to a column of another board. -/
def transferCard (conn : Conn) (id targetBoard targetColumn : Int) (position : Option Int) :
    StoreM Card := do
  transaction do
    let card ← requireCard id
    let _ ← getBoard targetBoard
    let target ← requireColumn targetColumn
    refuse (target.boardId ≠ targetBoard) (.invalidState
      s!"column {targetColumn} belongs to board {target.boardId}, declared destination board is {targetBoard}")
    let _ ← updateCards (fun c => c.id == id) fun c =>
      { c with boardId := targetBoard, columnId := targetColumn, updatedAt := conn.now }
    placeCardInColumnTx id targetColumn position
    renumberColumnCardsTx card.columnId
  requireCard id

/-! ## Deleting a column with its cards -/

/-- Append each of the cards to column `dst`, in turn. -/
def moveCardsTo (conn : Conn) (dst : Int) : List Int → StoreM Unit
  | [] => pure ()
  | cid :: cids => do
      let _ ← updateCards (fun c => c.id == cid) fun c =>
          { c with columnId := dst, updatedAt := conn.now }
      placeCardInColumnTx cid dst none
      moveCardsTo conn dst cids

def checkDestination (boardId : Int) : Option Int → StoreM Unit
  | none => pure ()
  | some dst => do
      let destination ← requireColumn dst
      refuse (destination.boardId ≠ boardId)
        (.invalidState s!"destination column {dst} belongs to another board")

/-- Delete a column, optionally moving its cards to another column first. -/
def deleteColumn (conn : Conn) (id : Int) (moveCardsToColumn : Option Int) : StoreM Unit := do
  let column ← requireColumn id
  checkDestination column.boardId moveCardsToColumn
  transaction do
    let db ← get
    match moveCardsToColumn with
    | some dst => moveCardsTo conn dst (db.cards.slots id)
    | none => pure ()
    deleteColumnRow id
    let db ← get
    setColumnPositions (db.columns.slots column.boardId)

/-! ## Status and timeout -/

def setCardStatus (conn : Conn) (id : Int) (status : CardStatus) : StoreM Card := do
  refuse (status = .awaiting)
    (.invalidState "enter awaiting with Db::set_card_awaiting so a reason is recorded")
  let _ ← updateCards (fun c => c.id == id) fun c =>
    { c with status := status, awaitingReason := none, updatedAt := conn.now }
  requireCard id

def setCardAwaiting (conn : Conn) (id : Int) (reason : AwaitingReason) : StoreM Card := do
  let _ ← updateCards (fun c => c.id == id) fun c =>
    { c with status := .awaiting, awaitingReason := some reason, updatedAt := conn.now }
  requireCard id

/-- Enter awaiting and pause the open run's durable timeout; repeated calls keep the first
pause instant. -/
def pauseRunTimeoutUow (conn : Conn) (cardId : Int) (reason : AwaitingReason) (nowMs : Int) :
    StoreM Card := do
  transaction do
    let _ ← updateCards (fun c => c.id == cardId) fun c =>
      { c with status := .awaiting, awaitingReason := some reason, updatedAt := conn.now }
    updateRuns (fun r => r.cardId == cardId && r.isActive) fun r =>
      { r with timeoutPausedAtMs := r.timeoutPausedAtMs <|> some nowMs }
  requireCard cardId

/-! ## 64-bit arithmetic -/

def i64Max : Int := 2 ^ 63 - 1
def i64Min : Int := -2 ^ 63

/-- The i64 nearest to `x`. -/
def saturate (x : Int) : Int := max i64Min (min i64Max x)

def saturatingAdd (a b : Int) : Int := saturate (a + b)
def saturatingSub (a b : Int) : Int := saturate (a - b)
def saturatingMul (a b : Int) : Int := saturate (a * b)

/-- Leave awaiting and shift the deadline by the paused span. -/
def resumeRunTimeoutUow (conn : Conn) (cardId : Int) (status : CardStatus) (nowMs : Int) :
    StoreM Card := do
  refuse (status = .awaiting) (.invalidState "cannot resume into awaiting")
  transaction do
    let db ← get
    let timing := (db.runs.select fun r => r.cardId == cardId && r.isActive).head?.map fun r =>
      (r.timeoutDeadlineAtMs, r.timeoutPausedAtMs)
    match timing with
    | some (deadline, some paused) =>
        let shifted := deadline.map fun d => saturatingAdd d (max (saturatingSub nowMs paused) 0)
        updateRuns (fun r => r.cardId == cardId && r.isOpen) fun r =>
          { r with timeoutDeadlineAtMs := shifted, timeoutPausedAtMs := none }
    | _ => pure ()
    let _ ← updateCards (fun c => c.id == cardId) fun c =>
      { c with status := status, awaitingReason := none, updatedAt := conn.now }
  requireCard cardId

/-! ## Comments -/

def addComment (conn : Conn) (cardId : Int) (author body : String) : StoreM Comment := do
  let _ ← requireCard cardId
  let id ← insertComment conn cardId author body
  let db ← get
  okOr (db.comments.find? id) (.notFound s!"comment {id}")

def requireComment (id : Int) : StoreM Comment := do
  let db ← get
  okOr (db.comments.find? id) (.notFound s!"comment {id}")

def updateComment (conn : Conn) (id : Int) (body : String) : StoreM Comment := do
  let current ← requireComment id
  refuse (current.author = "system") (.invalidState "system comments are immutable")
  refuse current.deletedAt.isSome (.invalidState "deleted comments are immutable")
  transaction do
    let db ← get
    exec fun t =>
      { t with
        comments := t.comments.update (fun m => m.id == id && m.deletedAt.isNone) fun m =>
          { m with body := body } }
    refuse ((db.comments.select fun m => m.id == id && m.deletedAt.isNone).length ≠ 1)
      (.notFound s!"comment {id}")
    exec fun t =>
      { t with
        commentHistory := t.commentHistory.insert fun h =>
          { id := h, commentId := id, cardId := current.cardId, author := current.author, body,
            createdAt := conn.now, deletedAt := none } }
  requireComment id

def softDeleteComment (conn : Conn) (id : Int) : StoreM Comment := do
  let current ← requireComment id
  refuse (current.author = "system") (.invalidState "system comments are immutable")
  refuse current.deletedAt.isSome (.invalidState "comment is already deleted")
  transaction do
    exec fun t =>
      { t with
        comments :=
          t.comments.update (fun m => m.id == id) fun m => { m with deletedAt := some conn.now } }
    let db ← get
    let last := (db.commentHistory.select fun h => h.commentId == id).getLast?.map CommentHistory.id
    exec fun t =>
      { t with
        commentHistory := t.commentHistory.update (fun h => some h.id == last) fun h =>
          { h with deletedAt := some conn.now } }
  requireComment id

end HerdrBoard.Core
