import HerdrBoard.Daemon.Watchers
import HerdrBoard.Core.Engine.Archive

/-!
# Request operations

Each definition is one lock scope of a request. A request that holds the locks twice has one
definition a scope. -/

open Lib HerdrBoard.Core

namespace HerdrBoard.Daemon

variable (cfg : Config) (env : Env)

/-! ## Cards -/

/-- The card `card.create` is about to insert. -/
def pendingCreateCard (p : CardCreateParams) : StoreM Card := do
  let boardId := p.boardId.getD BOARD_ID
  let default ← defaultColumnId boardId
  let columnId := p.columnId.getD default
  let column ← requireColumn columnId
  refuse (column.boardId ≠ boardId)
    (.invalidState s!"column {columnId} belongs to board {column.boardId}, expected {boardId}")
  pure { newCard env.conn p boardId columnId 0 0 with createdAt := "", updatedAt := "" }

/-- The first scope of `card.create`: an archived destination takes no card. -/
def createGuard (p : CardCreateParams) : StoreM Unit := do
  let db ← get
  match db.board? (p.boardId.getD BOARD_ID) with
  | some board => do
      refuse board.archivedAt.isSome
        (.invalidState (archivedBoardMessage (p.boardId.getD BOARD_ID)))
      match db.project? board.projectId with
      | some project =>
          refuse project.archivedAt.isSome (.invalidState (archivedProjectMessage project))
      | none => pure ()
  | none =>
      -- only the default board leaves the selected project to check
      if p.boardId.isSome then pure ()
      else match db.selection.bind db.project? with
        | some project =>
            refuse project.archivedAt.isSome (.invalidState (archivedProjectMessage project))
        | none => pure ()

/-- The critical section of `card.create`: the new card, and whether a run was enqueued for it. -/
def createEntering (p : CardCreateParams) : StoreM (Card × Bool) := do
  let pending ← pendingCreateCard env p
  let column ← requireColumn pending.columnId
  if (decideEntry column pending.status false).enqueue then
    let prepared ← prepareEnqueueValues cfg env pending pending.columnId false
    let created ← createCardAndEnqueueUow env.conn p prepared.borrowed
    pure (created.1, true)
  else
    let card ← createCard env.conn p
    pure (card, false)

/-- A human entry into an auto column resets the card's auto-hop count. -/
def forgetHops (entered : Card × Bool) (d : DaemonState) : DaemonState :=
  if entered.2 then { d with sched.chainHops := d.sched.chainHops.erase entered.1.id } else d

def cardCreate (p : CardCreateParams) : DaemonM Card := do
  fromExcept
    ((validateCardValues env.capabilitiesFor (p.harness.getD DEFAULT_HARNESS) p.model p.effort
    p.permissionMode (p.spaceKind.getD .workspace) p.spaceRef p.spaceCwd).mapError .validation)
  let entered ← store (createEntering cfg env p)
  modify (forgetHops entered)
  pure entered.1

def cardDuplicate (id : Int) : DaemonM Card := store (duplicateCard env.conn id)

/-- Harness and space fields, which are locked while the card has an open run. -/
def CardUpdateParams.editsLocked (p : CardUpdateParams) : Bool :=
  p.harness.isSome || !p.model.isUnchanged || !p.effort.isUnchanged ||
    !p.permissionMode.isUnchanged ||
    !p.session.isUnchanged || p.spaceKind.isSome || !p.spaceRef.isUnchanged ||
      !p.spaceCwd.isUnchanged

def cardUpdate (p : CardUpdateParams) : DaemonM Card :=
  store do
    let card ← requireCard p.id
    fromExcept ((validateCardEdit card.status (CardUpdateParams.editsLocked p)).mapError
      .validation)
    let db ← get
    refuse (CardUpdateParams.editsLocked p ∧ (db.openRunForCard p.id).isSome)
      (.invalidState "card has an open run; cannot edit harness/space fields")
    fromExcept ((validateCardSettings env.capabilitiesFor (mergeCardUpdate card p)).mapError
      .validation)
    updateCard env.conn p

def cardDelete (id : Int) : DaemonM Unit :=
  store do
    let _ ← requireCard id
    let db ← get
    refuse (db.openRunForCard id).isSome (.invalidState "card has an open run; cancel it first")
    deleteCard id

def cardArchive (id : Int) (archived : Bool) : DaemonM Card :=
  store do
    let card ← requireCard id
    let db ← get
    if archived then
      fromExcept ((validateCardArchive card.status).mapError .validation)
      refuse (db.openRunForCard id).isSome
        (.invalidState "card has an open run; cancel it before archiving")
    else pure ()
    setCardArchived env.conn id archived

/-- The column a move leads to, if neither its source nor its destination is archived. -/
def moveTarget (current : Card) (columnId : Int) : StoreM Column := do
  refuse current.archivedAt.isSome (.invalidState "archived card must be restored before moving")
  let srcBoard ← getBoard current.boardId
  refuse srcBoard.archivedAt.isSome (.invalidState (archivedBoardMessage srcBoard.id))
  let target ← requireColumn columnId
  let destBoard ← getBoard target.boardId
  refuse destBoard.archivedAt.isSome (.invalidState (archivedBoardMessage destBoard.id))
  let destProject ← getProject destBoard.projectId
  refuse destProject.archivedAt.isSome (.invalidState (archivedProjectMessage destProject))
  pure target

/-- The declared destination board is the target column's, and the card could run there. -/
def checkTransfer (current : Card) (target : Column) : Option Int → StoreM Unit
  | none => pure ()
  | some declared => do
      let _ ← getBoard declared
      refuse (target.boardId ≠ declared) (.invalidState
        s!"column {target.id} belongs to board {target.boardId}, declared destination board is {declared}")
      fromExcept ((validateEffectiveSettings env.capabilitiesFor current target).mapError
        .validation)
      fromExcept ((env.resolveSession current.session).mapError fun e =>
        .invalidState s!"cannot move: session does not resolve: {e}")
      if (decideEntry target current.status false).enqueue then
        fromExcept ((env.resolveSpace current.spaceKind current.spaceRef current.spaceCwd).mapError
          fun e =>
          .invalidState s!"cannot move: workspace does not resolve: {e}")
      else pure ()

/-- The declared destination board of a move that leaves the card's board. -/
def crossBoard (p : CardMoveParams) (current : Card) : Option Int :=
  p.boardId.filter (· ≠ current.boardId)

/-- Put the card in a column other than its own, with a run if the column starts one. -/
def moveEntering (p : CardMoveParams) (current : Card) (target : Column) :
    StoreM (Card × Bool) := do
  if (decideEntry target current.status false).enqueue then
    let prepared ← prepareEnqueueValues cfg env current p.columnId false
    let moved ← match crossBoard p current with
      | some board =>
          transferCardAndEnqueueUow env.conn p.id board p.columnId p.position prepared.borrowed
      | none => moveCardAndEnqueueUow env.conn p.id p.columnId p.position prepared.borrowed
    pure (moved.1, true)
  else
    let card ← match crossBoard p current with
      | some board => transferCard env.conn p.id board p.columnId p.position
      | none => moveCard env.conn p.id p.columnId p.position
    pure (card, false)

/-- The critical section of `card.move`. Moving within the card's column is a pure reorder. -/
def moveWithin (p : CardMoveParams) : StoreM (Card × Bool) := do
  let current ← requireCard p.id
  let target ← moveTarget current p.columnId
  if p.columnId = current.columnId then
    let card ← moveCard env.conn p.id p.columnId p.position
    pure (card, false)
  else
    checkTransfer env current target (crossBoard p current)
    moveEntering cfg env p current target

def cardMove (p : CardMoveParams) : DaemonM Card := do
  let moved ← store (moveWithin cfg env p)
  modify (forgetHops moved)
  pure moved.1

/-! ## Comments -/

/-- An agent may act only as itself, on its own card, while its run is open. -/
def requireAgentRun (db : Db) (actorRunId cardId : Int) (author : String) : Except Error Unit :=
  if author ≠ agentAuthor actorRunId then
    .error (.invalidState s!"agent run {actorRunId} may only act as {agentAuthor actorRunId}")
  else match db.run? actorRunId with
    | none =>
        -- The fake harness is handed a run id without a run row.
        match db.card? cardId with
        | none => .error (.notFound s!"card {cardId}")
        | some card =>
            if card.harness = "fake" ∧ (db.openRunForCard cardId).isNone then .ok ()
            else .error (.notFound s!"run {actorRunId}")
    | some run =>
        if run.cardId ≠ cardId then
          .error (.invalidState s!"agent run {actorRunId} does not belong to comment card {cardId}")
        else if run.endedAt.isSome then
          .error (.invalidState s!"agent run {actorRunId} is no longer open")
        else .ok ()

/-- Whether the caller's pane is the run's pane. -/
def actsFromPane (actorPaneId : Option String) (run : Run) : Bool :=
  actorPaneId.isSome && run.herdrPaneId == actorPaneId

/-- The author of a new comment: the open run of the caller's pane, the named run, or the
named author. -/
def commentAuthor (db : Db) (p : CommentAddParams) : Except Error String :=
  match (db.openRunForCard p.cardId).filter (actsFromPane p.actorPaneId), p.actorRunId with
  | some run, _ => .ok (agentAuthor run.id)
  | none, some runId => do
      requireAgentRun db runId p.cardId (p.author.getD (agentAuthor runId))
      pure (agentAuthor runId)
  | none, none => .ok (p.author.getD "user")

def commentAdd (p : CommentAddParams) : DaemonM Comment :=
  store do
    let card ← requireCard p.cardId
    let db ← get
    let author ← fromExcept (commentAuthor db p)
    addComment env.conn card.id author p.body

def commentForMutation (id : Int) (actorRunId : Option Int) : StoreM Comment := do
  let comment ← requireComment id
  let db ← get
  match actorRunId with
  | some runId => fromExcept (requireAgentRun db runId comment.cardId comment.author)
  | none => pure ()
  let _ ← requireCard comment.cardId
  pure comment

def commentUpdate (id : Int) (body : String) (actorRunId : Option Int) : DaemonM Comment :=
  store do
    let comment ← commentForMutation id actorRunId
    updateComment env.conn comment.id body

def commentDelete (id : Int) (actorRunId : Option Int) : DaemonM Unit :=
  store do
    let comment ← commentForMutation id actorRunId
    let _ ← softDeleteComment env.conn comment.id
    pure ()

/-! ## Runs -/

def lifecycleFacts (run : Run) (card : Card) (suppliedRunId : Option Int) : LifecycleFacts where
  openRunId := some run.id
  suppliedRunId
  started := run.startedAt.isSome
  harness := if isBuiltinHarness run.harness then .builtIn else .configured
  cardStatus := card.status

def lifecycleRejection (cardId : Int) : LifecycleRejection → Error
  | .noOpenRun | .queuedBuiltinCompletion => .notFound s!"no active run for card {cardId}"
  | .queuedCompletionRequiresRunId => .invalidState s!"queued run for card {cardId} requires run_id"
  | .suppliedRunIdMismatch expected supplied => .invalidState
      s!"no active run for card {cardId}: run {supplied} does not match active run {expected}"
  | .paneExitRequiresRunId =>
      .invalidState s!"pane-exited callback for card {cardId} must supply a run id"
  | .paneExitBuiltin => .invalidState "pane-exited callback is only valid for configured harnesses"
  | .timeoutBeforeStart => .invalidState s!"run for card {cardId} has not started"
  | .timeoutPaused => .invalidState s!"run for card {cardId} is awaiting review"

/-- The plan of an eligible lifecycle action on an open run. -/
def planLifecycle (run : Run) (card : Card) (suppliedRunId : Option Int)
    (action : LifecycleAction) :
    StoreM FinalizePlan :=
  match decideLifecycle (lifecycleFacts run card suppliedRunId) action with
  | .finalize plan => pure plan
  | .reject rejection => throw (lifecycleRejection card.id rejection)

/-- Why a card without an open run cannot be completed. -/
def noActiveRun (card : Card) (column : Column) : String :=
  if card.status = .idle ∧ column.trigger = .manual then
    s!"no active run for card {card.id}; manual column: close via board move {card.id} <column>"
  else s!"no active run for card {card.id}"

/-- The run that `run.done` completes, chosen in its first lock scope. -/
def runDoneSelect (p : RunDoneParams) : StoreM (Run × FinalizePlan) := do
  let card ← requireCard p.cardId
  let db ← get
  match db.openRunForCard p.cardId with
  | none => do
      let column ← requireColumn card.columnId
      throw (.notFound (noActiveRun card column))
  | some run => do
      -- A reused pane keeps its first run's id, so the pane vouches for the open run.
      let actorRunId := if actsFromPane p.actorPaneId run then some run.id else p.runId
      let plan ← planLifecycle run card actorRunId (.done p.outcome)
      pure (run, plan)

/-- The run that `run.pane_exited` fails, chosen in its first lock scope. -/
def runPaneExitedSelect (p : RunPaneExitedParams) : StoreM (Run × FinalizePlan) := do
  let db ← get
  let run ← okOr (db.openRunForCard p.cardId) (.notFound s!"no open run for card {p.cardId}")
  let card ← requireCard p.cardId
  let plan ← planLifecycle run card (some p.runId) .paneExited
  pure (run, plan)

/-- The started run that `run.cancel` ends; without one it cancels the queued run. -/
def runCancelSelect (cardId : Int) : StoreM (Option Run) := do
  let db ← get
  pure (db.activeRunForCard cardId)

/-- Cancel a queued run: verified and finalized in one critical section. -/
def cancelQueued (cardId : Int) : DaemonM FinalizeEffects := do
  let effects ← store do
    let db ← get
    let queued ← okOr ((db.openRunForCard cardId).filter fun run => run.startedAt.isNone)
      (.notFound s!"no active or queued run for card {cardId}")
    finalizeRunUow env.conn
      { runId := queued.id, outcome := .cancelled, summary := some "cancelled by user",
        comments := [("system", "queued run cancelled by user")], targetColumnId := none,
        finalStatus := .failed, finalAwaitingReason := none, next := none }
  modify fun d => { d with sched.chainHops := d.sched.chainHops.erase cardId }
  pure effects

/-- The first scope of `run.retry`: a human action resets the auto-hop count. -/
def retryReset (cardId : Int) : DaemonM Card := do
  let card ← store do
    let card ← requireCard cardId
    refuse card.archivedAt.isSome (.invalidState "archived card must be restored before retrying")
    let board ← getBoard card.boardId
    refuse board.archivedAt.isSome (.invalidState (archivedBoardMessage board.id))
    let project ← getProject board.projectId
    refuse project.archivedAt.isSome (.invalidState (archivedProjectMessage project))
    let db ← get
    refuse (db.openRunForCard cardId).isSome
      (.invalidState "card has an open run; complete or cancel it before retrying")
    pure card
  modify fun d => { d with sched.chainHops := d.sched.chainHops.erase cardId }
  pure card

/-! ## Columns -/

def columnCreate (p : ColumnCreateParams) : DaemonM Column := do
  fromExcept
    ((validateColumnValues env.capabilitiesFor p.harnessOverride p.modelOverride p.effortOverride
    p.permissionOverride .columnOverride).mapError .validation)
  store (createColumn p)

def columnUpdate (p : ColumnUpdateParams) : DaemonM Column :=
  store do
    let current ← requireColumn p.id
    fromExcept ((validateColumnUpdate env.capabilitiesFor current
      (mergeColumnUpdate current p) p).mapError .validation)
    updateColumn p

def columnDelete (id : Int) (moveCardsTo : Option Int) : DaemonM Unit :=
  store do
    let db ← get
    fromExcept ((validateColumnDelete (!(db.listCardsInColumn id).isEmpty) (db.columnHasOpenRun id)
      moveCardsTo).mapError .validation)
    deleteColumn env.conn id moveCardsTo

/-! ## The pipeline template -/

def PLAN_PROMPT : String :=
  "You are in the PLAN stage. Use /quick-planner style planning: produce a written\n" ++
  "implementation plan and save it under docs/plans/ (or .plans/). Do not write code.\n" ++
  "When finished you MUST run:\n" ++
  "  board comment $BOARD_CARD_ID \"Plan ready at <filepath>. <3-line summary>\"\n" ++
  "  board done $BOARD_CARD_ID --outcome ok"

def EXECUTE_PROMPT : String :=
  "You are in the EXECUTE stage. Implement the plan referenced in the card comments.\n" ++
  "Run tests. When finished:\n" ++
  "  board comment $BOARD_CARD_ID \"<what changed, files touched, test results>\"\n" ++
  "  board done $BOARD_CARD_ID --outcome ok    # or --outcome fail with reasons"

def REVIEW_PROMPT : String :=
  "You are in the REVIEW stage. Review the diff against the card description and the\n" ++
  "plan/execution comments. Be adversarial. Then:\n" ++
  "  board comment $BOARD_CARD_ID \"<verdict + findings>\"\n" ++
  "  board done $BOARD_CARD_ID --outcome ok    # ok = ship to human; fail = back to Execute"

def pipelineSpecs (boardId : Int) : List ColumnCreateParams :=
  [ { name := "Plan", boardId := some boardId, trigger := some .auto,
      systemPrompt := some PLAN_PROMPT },
    { name := "Execute", boardId := some boardId, trigger := some .auto,
      systemPrompt := some EXECUTE_PROMPT },
    { name := "Review", boardId := some boardId, trigger := some .auto,
      systemPrompt := some REVIEW_PROMPT, modelOverride := some "opus" },
    { name := "Human Review", boardId := some boardId, trigger := some .manual },
    { name := "Done", boardId := some boardId, trigger := some .manual } ]

def pipelineWiring (todo : Int) : List ColumnWiring :=
  [ { columnIndex := 0, onSuccess := some (.created 1), onFail := some (.existing todo) },
    { columnIndex := 1, onSuccess := some (.created 2), onFail := none },
    { columnIndex := 2, onSuccess := some (.created 3), onFail := some (.created 1) } ]

/-- Apply the pipeline template to a board that has only its seed column. -/
def templateApply (boardId : Int) : DaemonM (List Column) :=
  store do
    let _ ← getBoard boardId
    let db ← get
    match db.listColumns boardId with
    | [todo] => do
        refuse (todo.name ≠ "Todo" ∨ (db.cards.select fun c => c.boardId == boardId) ≠ [])
          (.invalidState
            "template.apply requires an empty board (only the seed Todo column, no cards)")
        applyTemplateColumnsUow boardId (pipelineSpecs boardId) (pipelineWiring todo.id)
    | _ =>
        throw (.invalidState
          "template.apply requires an empty board (only the seed Todo column, no cards)")

end HerdrBoard.Daemon
