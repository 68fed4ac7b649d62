import HerdrBoard.Core.Db.CardsComments

/-!
# Runs
-/

namespace HerdrBoard.Core

open Lib

/-- Insert a queued run and publish the card's queued state. -/
def enqueueRunUow (conn : Conn) (p : EnqueueRun) : StoreM Run := do
  let card ← requireCard p.cardId
  let column ← requireColumn p.columnId
  refuse (card.boardId ≠ column.boardId) (.invalidState "run column belongs to another board")
  let id ← transaction (enqueueRunTx conn p.cardId p)
  getRun id

/-- The statements of a promotion. -/
def promoteRunTx (conn : Conn) (runId : Int) (workspaceId paneId anchorPaneId : Option String)
    (timeoutDeadlineAtMs : Option Int) (capturedSessionId : Option String) : StoreM Unit := do
  let db ← get
  let run ← okOr ((db.run? runId).filter Run.isQueued) (.invalidState s!"run {runId} is not queued")
  updateRuns (fun r => r.id == runId) fun r =>
    { r with
      startedAt := some conn.now
      herdrWorkspaceId := workspaceId
      herdrPaneId := paneId
      herdrAnchorPaneId := anchorPaneId
      timeoutDeadlineAtMs := timeoutDeadlineAtMs
      timeoutPausedAtMs := none
      sessionId := capturedSessionId <|> r.sessionId }
  lifecycleFault conn .promoteAfterRunUpdate
  if capturedSessionId.isSome then lifecycleFault conn .captureAfterRunUpdate else pure ()
  let _ ← updateCards (fun c => c.id == run.cardId) fun c =>
    { c with
      status := .running, awaitingReason := none, sessionId := capturedSessionId <|> c.sessionId,
             updatedAt := conn.now }

/-- Promote an exact queued run and its card to running, with the harness-captured
conversation id. -/
def promoteRunWithAnchorUow (conn : Conn) (runId : Int)
    (workspaceId paneId anchorPaneId : Option String)
    (timeoutDeadlineAtMs : Option Int) (capturedSessionId : Option String) : StoreM Run := do
  transaction (promoteRunTx conn runId workspaceId paneId anchorPaneId timeoutDeadlineAtMs
    capturedSessionId)
  getRun runId

/-- Persist a harness-captured session id on the exact open run and its card. -/
def promoteCapturedSessionUow (conn : Conn) (runId : Int) (sessionId : String) : StoreM Run := do
  refuse (isBlank sessionId) (.badRequest "captured session id must not be empty")
  transaction do
    let db ← get
    let run ← okOr ((db.run? runId).filter Run.isOpen) (.invalidState s!"run {runId} is not open")
    updateRuns (fun r => r.id == runId) fun r => { r with sessionId := some sessionId }
    lifecycleFault conn .captureAfterRunUpdate
    let _ ← updateCards (fun c => c.id == run.cardId) fun c =>
      { c with sessionId := some sessionId, updatedAt := conn.now }
  getRun runId

/-! ## Finalizing -/

structure FinalizeRun where
  runId : Int
  outcome : RunOutcome
  summary : Option String
  comments : List (String × String)
  targetColumnId : Option Int
  finalStatus : CardStatus
  finalAwaitingReason : Option AwaitingReason
  /-- Next run inserted atomically with finalization (an auto hop). -/
  next : Option EnqueueRun

/-- Durable values callers may use for effects only after commit. -/
structure FinalizeEffects where
  card : Card
  finishedRun : Run
  nextRun : Option Run
  deriving DecidableEq

/-- `SELECT EXISTS(… c.board_id=col.board_id)` of a card and a column. -/
def Db.boardMatches (db : Db) (columnId cardId : Int) : Bool :=
  (db.columns.select fun col => col.id == columnId).any fun col =>
    (db.cards.select fun c => c.id == cardId).any fun c => c.boardId == col.boardId

/-- The next run must be of the card and in a column of its board. -/
def checkNext (cardId : Int) : Option EnqueueRun → StoreM Unit
  | none => pure ()
  | some next => do
      refuse (next.cardId ≠ cardId) (.invalidState "next run belongs to another card")
      let db ← get
      refuse (db.boardMatches next.columnId cardId = false)
        (.invalidState "next run column belongs to another board")

def insertComments (conn : Conn) (cardId : Int) : List (String × String) → StoreM Unit
  | [] => pure ()
  | (author, body) :: comments => do
      let _ ← insertComment conn cardId author body
      insertComments conn cardId comments

/-- Move the card to the end of the target column, compacting the source column. -/
def applyTransition (cardId : Int) : Option Int → StoreM Unit
  | none => pure ()
  | some columnId => do
      let db ← get
      refuse (db.boardMatches columnId cardId = false)
        (.invalidState "target column belongs to another board")
      let card ← requireCard cardId
      let _ ← updateCards (fun c => c.id == cardId) fun c => { c with columnId := columnId }
      let db ← get
      setCardPositions (db.cards.others columnId cardId ++ [cardId])
      if card.columnId ≠ columnId then renumberColumnCardsTx card.columnId else pure ()

/-- The queued-run insertion of an auto hop, as `finalize_run_uow` spells it out. -/
def insertNext (cardId : Int) : Option EnqueueRun → StoreM (Option Int)
  | none => pure none
  | some next => do
      let id ← insertRun (queuedRun next.cardId next)
      let _ ← updateCards (fun c => c.id == cardId) fun c =>
          { c with status := .queued, awaitingReason := none }
      pure (some id)

def getNextRun : Option Int → StoreM (Option Run)
  | none => pure none
  | some id => do
      let run ← getRun id
      pure (some run)

/-- The statements of a finalization, with the ids of the card and of the next run. -/
def finalizeRunTx (conn : Conn) (p : FinalizeRun) : StoreM (Int × Option Int) := do
  let db ← get
  let run ← okOr ((db.run? p.runId).filter Run.isOpen) (.invalidState s!"run {p.runId} is not open")
  let cardId := run.cardId
  checkNext cardId p.next
  updateRuns (fun r => r.id == p.runId) fun r =>
    { r with endedAt := some conn.now, outcome := some p.outcome, resultSummary := p.summary }
  lifecycleFault conn .finalizeAfterRunUpdate
  insertComments conn cardId p.comments
  applyTransition cardId p.targetColumnId
  let _ ← updateCards (fun c => c.id == cardId) fun c =>
    { c with
      status := p.finalStatus, awaitingReason := p.finalAwaitingReason, updatedAt := conn.now }
  let nextId ← insertNext cardId p.next
  pure (cardId, nextId)

/-- Close a run, append its comments, transition the card, and enqueue the already-planned
next auto-hop. -/
def finalizeRunUow (conn : Conn) (p : FinalizeRun) : StoreM FinalizeEffects := do
  let ids ← transaction (finalizeRunTx conn p)
  let card ← requireCard ids.1
  let finishedRun ← getRun p.runId
  let nextRun ← getNextRun ids.2
  pure { card, finishedRun, nextRun }

/-! ## Queries -/

namespace Db

variable (db : Db)

/-- Whether any card currently in `columnId` has an open run. -/
def columnHasOpenRun (columnId : Int) : Bool :=
  db.runs.rows.any fun r => r.isOpen && (db.card? r.cardId).any fun c => c.columnId == columnId

/-- Runs of the list paired with their cards. -/
def withCards (runs : List Run) : List (Run × Card) :=
  runs.filterMap fun r => (db.card? r.cardId).map fun c => (r, c)

/-- Started and open runs paired with their cards, by run id. -/
def activeRunsWithCards : List (Run × Card) := db.withCards (db.runs.select Run.isActive)

/-- Never-started open runs paired with cards in global FIFO order. -/
def queuedRunsWithCards : List (Run × Card) := db.withCards (db.runs.select Run.isQueued)

end Db

end HerdrBoard.Core
