import HerdrBoard.Daemon.Dispatch
import HerdrBoard.Core.Engine.Signals

/-!
# Watchers

Agent signals, timeouts, pane lookup, and adoption of runs after a restart.
-/

open Lib HerdrBoard.Core

namespace HerdrBoard.Daemon

variable (cfg : Config) (env : Env)

/-! ## Signals -/

inductive SignalGuard where
  | none
  | idleExpired (observedIdleSince now : Instant) (graceSeconds : Nat)

/-- Whether the idle observation behind the signal has been cleared or replaced. -/
def SignalGuard.isStale (active : ActiveRun) : SignalGuard → Bool
  | .none => false
  | .idleExpired observed now grace =>
      active.idleSince != some observed ||
        decide (saturatingDurationSince now observed < grace * 1000)

/-- The single database write of a signal decision. -/
def writeSignal (card : Card) (dec : SignalDecision) : StoreM Card :=
  match dec.awaitingReason with
  | some reason =>
      if card.status ≠ .awaiting then pauseRunTimeoutUow env.conn card.id reason env.wallNowMs
      else setCardAwaiting env.conn card.id reason
  | none =>
      if card.status = .awaiting then resumeRunTimeoutUow env.conn card.id dec.newStatus
        env.wallNowMs
      else setCardStatus env.conn card.id dec.newStatus

/-- Timeout-pause bookkeeping of a status change. -/
def pauseBookkeeping (before after : CardStatus) (active : ActiveRun) : ActiveRun :=
  if before ≠ .awaiting ∧ after = .awaiting then active.enterAwaiting env.instant
  else if before = .awaiting ∧ after ≠ .awaiting then active.leaveAwaiting env.instant
  else active

/-- Apply a signal to a watched run whose row is started and open; a no-op for stale signals. -/
def applySignalGuarded (runId cardId : Int) (signal : AgentSignal) (guard : SignalGuard)
    (d : DaemonState) : DaemonState :=
  match d.sched.active.lookup runId, d.db.run? runId, d.db.card? cardId with
  | some active, some run, some card =>
      if active.cardId ≠ cardId ∨ guard.isStale active then d
      else if run.cardId ≠ cardId ∨ run.startedAt.isNone ∨ run.endedAt.isSome then d
      else match decideSignal card.status signal with
        | none => d
        | some dec =>
            match writeSignal env card dec d.db with
            | .error _ _ => d
            | .ok _ db =>
                { d with
                  db
                  sched.active := d.sched.active.insert runId
                    (pauseBookkeeping env card.status dec.newStatus active) }
  | _, _, _ => d

def applySignal (runId cardId : Int) (signal : AgentSignal) (d : DaemonState) : DaemonState :=
  applySignalGuarded env runId cardId signal .none d

/-! ## Timeouts -/

structure Candidate where
  runId : Int
  cardId : Int
  elapsed : Int
  timedOut : Bool
  observedIdleSince : Option Instant
  deriving DecidableEq

def classifyRun (d : DaemonState) (now : Instant) (runId : Int) (a : ActiveRun) :
    Option Candidate :=
  if (d.db.card? a.cardId).any fun c => c.status == .awaiting then none
  else
    let timedOut := a.timeoutDeadline.any fun deadline => deadline ≤ now
    let observedIdleSince := if timedOut then none
      else a.idleSince.filter fun idle =>
        cfg.idleGraceSeconds * 1000 ≤ saturatingDurationSince now idle
    if timedOut ∨ observedIdleSince.isSome then
      some { runId, cardId := a.cardId,
             elapsed := saturatingDurationSince now a.started, timedOut, observedIdleSince }
    else none

/-- Snapshot and classify the watched runs; runs of awaiting cards are skipped. -/
def classifyCandidates (d : DaemonState) (now : Instant) : List Candidate :=
  d.sched.active.entries.filterMap fun e => classifyRun cfg d now e.1 e.2

/-- Finalize a timed-out candidate, or report an expired idle period. -/
def applyCandidate (c : Candidate) (now : Instant) (d : DaemonState) : DaemonState :=
  if c.timedOut then
    let msg := s!"run timed out after {formatDuration (some (c.elapsed / 1000))}; applying on_fail"
    finalState (finalizeRunTimeout cfg env c.runId now .fail (some msg) (some msg) true true d)
  else match c.observedIdleSince with
    | some observed =>
        applySignalGuarded env c.runId c.cardId .idleExpired
          (.idleExpired observed now cfg.idleGraceSeconds) d
    | none => d

/-- A timeout and idle pass over classified candidates, each applied in a lock scope of its own. -/
def checkAt (candidates : List (Env × Candidate)) (now : Instant) (d : DaemonState) : DaemonState :=
  candidates.foldl (fun d c => applyCandidate cfg c.1 c.2 now d) d

/-! ## Lookup by pane -/

/-- The daemon's default socket stands for a handle without one. -/
def effectiveHerdrSocket (defaultSocket : String) (socket : Option String) : String :=
  socket.getD defaultSocket

/-- The watched run of a pane on a socket. -/
def findRunByPane (d : DaemonState) (defaultSocket paneId sourceSocket : String) : Option Int :=
  (d.sched.active.entries.find? fun e =>
    e.2.paneId == some paneId &&
      effectiveHerdrSocket defaultSocket e.2.handle.herdrSocket == sourceSocket).map Sigma.fst

def cardOf (d : DaemonState) (runId : Int) : Option Int :=
  (d.sched.active.lookup runId).map ActiveRun.cardId

/-- Arm or disarm the idle timer of a watched run. -/
def setIdle (runId : Int) (idleSince : Option Instant) (d : DaemonState) : DaemonState :=
  match d.sched.active.lookup runId with
  | some a => { d with sched.active := d.sched.active.insert runId { a with idleSince } }
  | none => d

/-- `idle` arms the grace timer of a run whose card is not awaiting. -/
def armIdle (runId : Int) (d : DaemonState) : DaemonState :=
  match d.sched.active.lookup runId with
  | some a =>
      if (d.db.card? a.cardId).any (fun c => c.status == .awaiting) ∨ a.idleSince.isSome then d
      else setIdle runId (some env.instant) d
  | none => d

/-- Is the run still open (started, not ended)? -/
def runOpen (d : DaemonState) (runId : Int) : Bool := (d.db.run? runId).any Run.isActive

/-! ## Adoption -/

/-- The handle of a durable run whose process lives on. -/
def adoptedHandle (run : Run) (socket : Option String) : RuntimeHandle where
  paneId := run.herdrPaneId
  workspaceId := run.herdrWorkspaceId
  anchorPaneId := run.herdrAnchorPaneId
  pid := none
  herdrSocket := socket
  capturedSessionId := run.sessionId

/-- Bookkeeping of an adopted run, its clocks reconstructed from the durable row. -/
def adoptedRun (cardId : Int) (run : Run) (socket : Option String) : ActiveRun where
  cardId
  handle := adoptedHandle run socket
  started := env.instant
  timeoutDeadline := ActiveRun.reconstructDeadline env.instant env.wallNowMs run.timeoutDeadlineAtMs
  idleSince := none
  awaitingSince := ActiveRun.reconstructAwaitingSince env.instant env.wallNowMs
    run.timeoutPausedAtMs
  isLocal := false
  paneId := run.herdrPaneId

/-- The run as the store has it now, if it is still the observed one, started and open. -/
def sameOpenRun (db : Db) (observed : Run) (cardId : Int) : Option Run :=
  match db.run? observed.id, db.card? cardId with
  | some current, some card =>
      if current.startedAt.isSome ∧ current.endedAt.isNone ∧ current.cardId = observed.cardId ∧
          card.id = current.cardId ∧ current.session = observed.session ∧
          current.herdrPaneId = observed.herdrPaneId
      then some current
      else none
  | _, _ => none

/-- `reconcile` inserts under the scheduler lock alone, unless the run is watched already. -/
def insertReconciled (runId : Int) (a : ActiveRun) (d : DaemonState) : DaemonState :=
  if (d.sched.active.lookup runId).isSome then d
  else { d with sched.active := d.sched.active.insert runId a }

/-- Startup adoption inserts under the scheduler lock alone, whatever is there. -/
def insertAdopted (runId : Int) (a : ActiveRun) (d : DaemonState) : DaemonState :=
  { d with sched.active := d.sched.active.insert runId a }

end HerdrBoard.Daemon
