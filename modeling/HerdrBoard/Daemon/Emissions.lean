import HerdrBoard.Daemon.Ops
import HerdrBoard.Server.Buffer

/-!
# What the daemon emits

The lifecycle operations with what they send once their lock scope has committed. The kills they
issue are part of the daemon's state. -/

open Lib HerdrBoard.Core

namespace HerdrBoard.Daemon

inductive Emission where
  | watchRefresh
  | notification (title body : String)
  | event (ev : Server.Event)
  | dispatchWake
  deriving DecidableEq

/-- The daemon with what it has emitted, oldest first. -/
structure Emitting where
  daemon : DaemonState
  emitted : List Emission

abbrev EmitM := EStateM Error Emitting

/-- A lock scope. -/
def locked {α : Type} (x : DaemonM α) : EmitM α :=
  zoom Emitting.daemon (fun daemon s => { s with daemon }) x

def emit (es : List Emission) : EmitM Unit := modify fun s => { s with emitted := s.emitted ++ es }

def emitChanged (reason : Server.BoardChangedReason) (cardId columnId : Option Int) : Emission :=
  .event (.boardChanged reason none cardId columnId)

def emitChangedBoard (reason : Server.BoardChangedReason) (boardId : Int)
    (cardId columnId : Option Int) : Emission :=
  .event (.boardChanged reason (some boardId) cardId columnId)

/-- The typed `run_ended` and its coarse twin. -/
def emitRunEnded (cardId runId : Int) (outcome : RunOutcome) : List Emission :=
  [.event (.runEnded cardId runId outcome), emitChanged .runEnded (some cardId) none]

variable (cfg : Config) (env : Env)

/-! ## Finalizing -/

/-- The notification of a card that enters a manual column. -/
def reviewNotice (db : Db) (run : Run) (card : Card) (outcome : RunOutcome) : List Emission :=
  match db.column? run.columnId with
  | none => []
  | some current =>
      let cols := db.listColumns card.boardId
      let dec := decideTransition current cols outcome none
      match dec.targetColumnId with
      | none => []
      | some targetId =>
          if dec.enqueue then []
          else match (cols.find? fun c => c.id == targetId).filter fun c =>
            c.trigger == .manual with
            | some target =>
                [.notification s!"Card #{card.id} ready for review" s!"Entered {target.name}"]
            | none => []

/-- `finalize_run_inner` with its post-commit effects. -/
def finalizeRunEmitting (runId : Int) (outcome : RunOutcome) (summary extraComment : Option String)
    (kill transition : Bool) (timeoutAt : Option Instant) : EmitM (Option (Run × Card)) := do
  let existing ← locked (store (getRun runId))
  if existing.endedAt.isSome then
    let card ← locked (store (requireCard existing.cardId))
    pure (some (existing, card))
  else
    let d ← locked get
    if timeoutAt.any (timeoutStale d existing) then pure none
    else
      let elapsed := (d.sched.active.lookup runId).map fun active =>
        saturatingDurationSince env.instant active.started / 1000
      let card ← locked (store (requireCard existing.cardId))
      let plan ←
        if transition then
          locked (store (planTransition cfg env ((d.sched.chainHops.lookup card.id).getD 0) existing
            card outcome elapsed))
        else pure (stayPut outcome)
      let effects ← locked
          (store (finalizeRunUow env.conn (plan.finalize runId outcome summary extraComment)))
      locked (modify fun d => settleFinalized d runId card.id plan.nextHops kill)
      emit ([.watchRefresh] ++
        (if transition then reviewNotice d.db existing card outcome else []) ++
        emitRunEnded effects.card.id runId outcome ++ [.dispatchWake])
      pure (some (effects.finishedRun, effects.card))

/-- `fail_queued_run` with its post-commit effects. -/
def failQueuedRunEmitting (runId : Int) (reason : String) : EmitM Unit := do
  let effects ← locked (store (finalizeRunUow env.conn
    { runId, outcome := .fail, summary := some reason, comments := [("system", reason)],
      targetColumnId := none, finalStatus := .failed, finalAwaitingReason := none, next := none }))
  emit ([.watchRefresh] ++ emitRunEnded effects.card.id runId .fail ++ [.dispatchWake])

/-- The second half of `run.cancel`, for a queued run. -/
def cancelQueuedEmitting (cardId : Int) : EmitM Unit := do
  let effects ← locked (cancelQueued env cardId)
  emit ([.watchRefresh] ++ emitRunEnded cardId effects.finishedRun.id .cancelled ++ [.dispatchWake])

/-! ## Starting and enqueueing -/

/-- The registration at the end of `spawn_one`, and what follows a run that started. -/
def registerEmitting (run : Run) (card : Card) (handle : RuntimeHandle) (started : Instant)
    (timeoutDeadline : Option Instant) (timeoutDeadlineAtMs : Option Int) : EmitM Bool := do
  let registered ← locked
      (registerSpawnedRun env run.id handle started timeoutDeadline timeoutDeadlineAtMs)
  if registered then
    emit [.watchRefresh, emitChanged .runStarted (some card.id) (some run.columnId)]
    pure true
  else pure false

/-- The second half of `run.retry`. -/
def retryEmitting (cardId columnId : Int) : EmitM Run := do
  let run ← locked (enqueueRun cfg env cardId columnId true)
  emit [.dispatchWake, emitChanged .cardUpdated (some cardId) none]
  pure run

/-- A capture outside of a promotion; nothing follows it. -/
def captureEmitting (runId : Int) (sessionId : String) : EmitM Run :=
  locked (store (promoteCapturedSessionUow env.conn runId sessionId))

/-- `card.create` after its guard, and what follows it. -/
def cardCreateEmitting (p : CardCreateParams) : EmitM Card := do
  locked
    (fromExcept
      ((validateCardValues env.capabilitiesFor (p.harness.getD DEFAULT_HARNESS) p.model p.effort
    p.permissionMode (p.spaceKind.getD .workspace) p.spaceRef p.spaceCwd).mapError .validation))
  let entered ← locked (store (createEntering cfg env p))
  locked (modify (forgetHops entered))
  emit ([emitChanged .cardCreated (some entered.1.id) (some entered.1.columnId)] ++
    if entered.2 then [.dispatchWake] else [])
  pure entered.1

/-- One `card_moved` for each board a move touches, and a wake if it enqueued a run. -/
def moveEmissions (db : Db) (p : CardMoveParams) (moved : Card × Bool) : List Emission :=
  match db.card? p.id, db.column? p.columnId with
  | some current, some target =>
      if p.columnId = current.columnId then
        [emitChangedBoard .cardMoved current.boardId (some moved.1.id) (some p.columnId)]
      else
        (if current.boardId ≠ target.boardId then
          [emitChangedBoard .cardMoved current.boardId (some moved.1.id) (some current.columnId)]
            else []) ++
        [emitChangedBoard .cardMoved target.boardId (some moved.1.id) (some p.columnId)] ++
        (if moved.2 then [.dispatchWake] else [])
  | _, _ => []

def cardMoveEmitting (p : CardMoveParams) : EmitM Card := do
  let d ← locked get
  let moved ← locked (store (moveWithin cfg env p))
  locked (modify (forgetHops moved))
  emit (moveEmissions d.db p moved)
  pure moved.1

/-! ## Units of work -/

/-- The lifecycle units of work, as the daemon carries them out. -/
inductive LifecycleUnit where
  | enqueue (cardId columnId : Int)
  | register (run : Run) (card : Card) (handle : RuntimeHandle) (started : Instant)
      (timeoutDeadline : Option Instant) (timeoutDeadlineAtMs : Option Int)
  | capture (runId : Int) (sessionId : String)
  | finalize (runId : Int) (outcome : RunOutcome) (summary extraComment : Option String)
      (kill transition : Bool) (timeoutAt : Option Instant)
  | cancel (cardId : Int)
  | failQueued (runId : Int) (reason : String)
  | create (p : CardCreateParams)
  | move (p : CardMoveParams)

def LifecycleUnit.perform : LifecycleUnit → EmitM Unit
  | .enqueue cardId columnId => do let _ ← retryEmitting cfg env cardId columnId
  | .register run card handle started deadline deadlineAtMs => do
      let _ ← registerEmitting env run card handle started deadline deadlineAtMs
  | .capture runId sessionId => do let _ ← captureEmitting env runId sessionId
  | .finalize runId outcome summary extra kill transition timeoutAt => do
      let _ ← finalizeRunEmitting cfg env runId outcome summary extra kill transition timeoutAt
  | .cancel cardId => cancelQueuedEmitting env cardId
  | .failQueued runId reason => failQueuedRunEmitting env runId reason
  | .create p => do let _ ← cardCreateEmitting cfg env p
  | .move p => do let _ ← cardMoveEmitting cfg env p

/-- The same unit on the daemon alone. -/
def LifecycleUnit.onDaemon : LifecycleUnit → DaemonM Unit
  | .enqueue cardId columnId => do let _ ← enqueueRun cfg env cardId columnId true
  | .register run _ handle started deadline deadlineAtMs => do
      let _ ← registerSpawnedRun env run.id handle started deadline deadlineAtMs
  | .capture runId sessionId => do let _ ← store (promoteCapturedSessionUow env.conn
      runId sessionId)
  | .finalize runId outcome summary extra kill transition timeoutAt => do
      let _ ← finalizeRunInner cfg env runId outcome summary extra kill transition timeoutAt
  | .cancel cardId => do let _ ← cancelQueued env cardId
  | .failQueued runId reason => failQueuedRun env runId reason
  | .create p => do let _ ← cardCreate cfg env p
  | .move p => do let _ ← cardMove cfg env p

end HerdrBoard.Daemon
