import HerdrBoard.Daemon.State
import HerdrBoard.Core.Engine.Transitions
import HerdrBoard.Core.Engine.Lifecycle

/-!
# Run dispatch

Enqueue, promote and finalize a run, each as one critical section.
-/

open Lib HerdrBoard.Core

namespace HerdrBoard.Daemon

variable (cfg : Config) (env : Env)

/-! ## Enqueueing -/

structure PreparedEnqueue where
  cardId : Int
  columnId : Int
  harness : String
  argv : List String
  prompt : String
  systemPrompt : String
  launchSpec : ExecutionSpec
  sessionId : Option String
  session : Option String
  deriving DecidableEq

def PreparedEnqueue.borrowed (p : PreparedEnqueue) : EnqueueRun where
  cardId := p.cardId
  columnId := p.columnId
  harness := p.harness
  argv := p.argv
  promptSnapshot := p.prompt
  systemPromptSnapshot := some p.systemPrompt
  launchSpec := some p.launchSpec
  sessionId := p.sessionId
  session := p.session

def mapHarnessErr : HarnessError → Error
  | .unknownHarness h => .badRequest s!"unknown harness: {h}"
  | .missingMintedSession => .badRequest "mint session requested without a uuid"
  | .missingForkTargetSession => .badRequest "Pi fork requested without a new session uuid"
  | .piPermissionModeUnsupported => .badRequest "pi does not support permission modes"
  | .openCodeEffortRequiresModel => .badRequest
      ("opencode effort requires a model: effort rides the herdr-board agent's " ++
        "per-model variant, so set a model on the card or column")

/-- The session plan of a run of `card` in `column`, from the card's runs and comments. -/
def enqueuePlan (db : Db) (card : Card) (column : Column) (isRetry : Bool) : SessionPlan :=
  let sessionUsed := decideResumability card.sessionId (db.listRuns card.id)
    (db.listComments card.id) == .resumable
  planSession (card.sessionId.filter fun _ => sessionUsed) column.freshSession isRetry

/-- The uuid minted for the plan. -/
def targetSession (plan : SessionPlan) (uuid : String) : Option String :=
  match plan with
  | .mint | .fork _ => some uuid
  | .resume _ => none

/-- The session id the run records: the one the harness reports, or a synthetic one for
configured harnesses. -/
def recordedSessionId (harness : String) (plan : SessionPlan) (target resulting : Option String) :
    Option String :=
  resulting <|> match plan with
    | .mint => if isBuiltinHarness harness then none else target
    | .resume id | .fork id => if isBuiltinHarness harness then none else some id

def prepareEnqueueValues (card : Card) (columnId : Int) (isRetry : Bool) :
    StoreM PreparedEnqueue := do
  let column ← requireColumn columnId
  let db ← get
  let comments := db.listComments card.id
  fromExcept ((validateEffectiveSettings env.capabilitiesFor card column).mapError .validation)
  let settings ← fromExcept ((effectiveSettings card column).mapError .validation)
  let prompt := assemblePrompt card.description comments
  let plan := enqueuePlan db card column isRetry
  let target := targetSession plan env.uuid
  let invocation ← fromExcept
    ((buildInvocation settings.harness cfg.harness settings plan target prompt).mapError
      mapHarnessErr)
  pure
    { cardId := card.id
      columnId
      harness := settings.harness
      argv := invocation.argv
      prompt
      systemPrompt := invocation.systemPrompt.getD (protocolSystemPrompt settings.systemPrompt)
      launchSpec :=
        { argv := invocation.argv
          env := invocation.env
          agentKind := invocation.agentKind
          initialPrompt := invocation.initialPrompt
          systemPrompt := invocation.systemPrompt }
      sessionId := recordedSessionId settings.harness plan target invocation.resultingSessionId
      session := card.session }

/-- The archived-destination guard of an enqueue. -/
def checkNotArchived (card : Card) (columnId : Int) : StoreM Unit := do
  let board ← getBoard card.boardId
  refuse board.archivedAt.isSome (.invalidState (archivedBoardMessage board.id))
  let project ← getProject board.projectId
  refuse project.archivedAt.isSome (.invalidState (archivedProjectMessage project))
  let column ← requireColumn columnId
  let targetBoard ← getBoard column.boardId
  refuse (targetBoard.archivedAt.isSome ∧ targetBoard.id ≠ board.id)
    (.invalidState (archivedBoardMessage targetBoard.id))

/-- Create a queued run row for a card in its column. -/
def enqueueRun (cardId columnId : Int) (isRetry : Bool) : DaemonM Run :=
  store do
    let card ← requireCard cardId
    refuse card.archivedAt.isSome
      (.invalidState "archived card must be restored before starting a run")
    checkNotArchived card columnId
    let db ← get
    refuse (db.openRunForCard cardId).isSome
      (.invalidState "card has an open run; complete or cancel it before starting another")
    refuse (card.columnId ≠ columnId)
      (.invalidState "card moved to another column while its run was being prepared")
    let prepared ← prepareEnqueueValues cfg env card columnId isRetry
    enqueueRunUow env.conn prepared.borrowed

/-! ## Finalizing -/

/-- What a finalization writes besides the run's own end. -/
structure TransitionPlan where
  comments : List String
  targetColumnId : Option Int
  finalStatus : CardStatus
  next : Option PreparedEnqueue
  nextHops : Option Nat

/-- A plan without a next run. -/
def TransitionPlan.plain (comments : List String) (targetColumnId : Option Int)
    (finalStatus : CardStatus) :
    TransitionPlan :=
  { comments, targetColumnId, finalStatus, next := none, nextHops := none }

/-- The unit of work that carries out the plan. -/
def TransitionPlan.finalize (plan : TransitionPlan) (runId : Int) (outcome : RunOutcome)
    (summary extraComment : Option String) : FinalizeRun where
  runId
  outcome
  summary
  comments := (extraComment.toList ++ plan.comments).map fun body => ("system", body)
  targetColumnId := plan.targetColumnId
  finalStatus := plan.finalStatus
  finalAwaitingReason := none
  next := plan.next.map PreparedEnqueue.borrowed

/-- Without a transition the card stays: idle after `ok`, failed otherwise. -/
def stayPut (outcome : RunOutcome) : TransitionPlan :=
  .plain [] none (if outcome = .ok then .idle else .failed)

/-- Whether the card, its board or its project is archived, so that no run may be auto-enqueued. -/
def autoHopSuppressed (db : Db) (card : Card) : Bool :=
  card.archivedAt.isSome ||
  ((db.board? card.boardId).map fun b => b.archivedAt.isSome).getD false ||
  (((db.board? card.boardId).bind fun b => db.project? b.projectId).map fun p =>
    p.archivedAt.isSome).getD false

/-- The column transition of a finished run, with the auto-hop it leads to. -/
def planTransition (currentHops : Nat) (run : Run) (card : Card) (outcome : RunOutcome)
    (elapsed : Option Int) : StoreM TransitionPlan := do
  let current ← requireColumn run.columnId
  let db ← get
  let dec := decideTransition current (db.listColumns card.boardId) outcome elapsed
  match dec.targetColumnId with
  | none => pure (TransitionPlan.plain [dec.systemComment] none dec.newStatus)
  | some targetId =>
      if ¬dec.enqueue then pure (.plain [dec.systemComment] (some targetId) dec.newStatus)
      else if autoHopSuppressed db card then
        pure (.plain [dec.systemComment,
          "archived board must be restored first: auto-hop suppressed"]
          (some targetId) .failed)
      else match decideAutoHop currentHops dec with
        | .continue hop =>
            let next ← prepareEnqueueValues cfg env
                { card with columnId := targetId } targetId false
            pure { TransitionPlan.plain [dec.systemComment] (some targetId) dec.newStatus with
              next := some next, nextHops := some hop }
        | .stop message => pure (.plain [dec.systemComment, message] (some targetId) .failed)
        | .reset =>
            throw (.invalidState s!"run {run.id}: auto-hop decision reset an enqueueing transition")

/-- A timeout candidate that is no longer due, not started, or awaiting. -/
def timeoutStale (d : DaemonState) (existing : Run) (classifiedAt : Instant) : Bool :=
  let activeStillDue := (d.sched.active.lookup existing.id).any fun active =>
    active.cardId == existing.cardId && active.timeoutDeadline.any fun deadline =>
      deadline ≤ classifiedAt
  let cardIsAwaiting := (d.db.card? existing.cardId).any fun card => card.status == .awaiting
  !activeStillDue || existing.startedAt.isNone || cardIsAwaiting

/-- Scheduler bookkeeping and the kill after a committed finalization. -/
def settleFinalized (d : DaemonState) (runId cardId : Int) (nextHops : Option Nat) (kill : Bool) :
    DaemonState :=
  let chainHops := match nextHops with
    | some hops => d.sched.chainHops.insert cardId hops
    | none => d.sched.chainHops.erase cardId
  let killed := if kill then (d.sched.active.lookup runId).toList.map ActiveRun.handle else []
  { d with
    sched := { active := d.sched.active.erase runId, chainHops }
    kills := d.kills ++ killed }

/-- Finalize a run; `none` for a stale timeout candidate. -/
def finalizeRunInner (runId : Int) (outcome : RunOutcome) (summary extraComment : Option String)
    (kill transition : Bool) (timeoutAt : Option Instant) : DaemonM (Option (Run × Card)) := do
  let existing ← store (getRun runId)
  if existing.endedAt.isSome then
    let card ← store (requireCard existing.cardId)
    pure (some (existing, card))
  else
    let d ← get
    if timeoutAt.any (timeoutStale d existing) then pure none
    else
      let elapsed := (d.sched.active.lookup runId).map fun active =>
        saturatingDurationSince env.instant active.started / 1000
      let card ← store (requireCard existing.cardId)
      let plan ←
        if transition then
          store (planTransition cfg env ((d.sched.chainHops.lookup card.id).getD 0) existing card
            outcome elapsed)
        else pure (stayPut outcome)
      let effects ← store (finalizeRunUow env.conn
          (plan.finalize runId outcome summary extraComment))
      modify fun d => settleFinalized d runId card.id plan.nextHops kill
      pure (some (effects.finishedRun, effects.card))

def finalizeRun (runId : Int) (outcome : RunOutcome) (summary extraComment : Option String)
    (kill transition : Bool) : DaemonM (Run × Card) := do
  let finished ← finalizeRunInner cfg env runId outcome summary extraComment kill transition none
  okOr finished (.invalidState s!"run {runId} could not be claimed")

def finalizeRunTimeout (runId : Int) (timeoutAt : Instant) (outcome : RunOutcome)
    (summary extraComment : Option String) (kill transition : Bool) :
    DaemonM (Option (Run × Card)) :=
  finalizeRunInner cfg env runId outcome summary extraComment kill transition (some timeoutAt)

/-! ## Launching -/

/-- Whether a queued run's hop is a fork (retry) rather than a resume, read from its launch argv. -/
def argvIsFork (harness : String) (argv : List String) : Bool :=
  let fromEnd (n : Nat) : Option String := argv.reverse[n]?
  match harness with
  | "pi" => argv.any (· == "--fork")
  | "claude" => argv.any (· == "--fork-session")
  | "codex" => fromEnd 1 == some "fork"
  | "opencode" => fromEnd 2 == some "-s" && fromEnd 0 == some "--fork"
  | "antigravity" => argv.any (· == "--conversation")
  | _ => false

/-- The launch argv: the durable launch spec's, or the run row's for older rows. -/
def launchArgv (run : Run) : List String :=
  match run.launchSpec with
  | some spec => spec.argv
  | none => run.argv

/-- Durable rows are placed by their own snapshot, older ones by the card. -/
def launchSession (run : Run) (card : Card) : Option String :=
  if run.launchSpec.isSome then run.session else card.session

/-- The newest ended durable run of the same conversation, session and workspace. -/
def reuseSource (priorRuns : List Run) (run : Run) (session : Option String)
    (workspaceId sid : String) :
    Option Run :=
  (priorRuns.filter fun r =>
    r.id != run.id && r.endedAt.isSome && r.launchSpec.isSome && r.session == session &&
      r.herdrWorkspaceId == some workspaceId && r.sessionId == some sid).getLast?

/-- The prior pane to re-prompt when this hop resumes the same conversation. -/
def reusePaneId (priorRuns : List Run) (run : Run) (session : Option String)
    (workspaceId : String) :
    Option String :=
  if argvIsFork run.harness (launchArgv run) then none
  else run.sessionId.bind fun sid =>
    ((reuseSource priorRuns run session workspaceId sid).bind Run.herdrPaneId).filter fun pane =>
      pane ≠ ""

/-- The runs `spawn_one` considers: none for rows without a launch spec. -/
def priorRuns (db : Db) (run : Run) (card : Card) : List Run :=
  if run.launchSpec.isSome then db.listRuns card.id else []

/-- The in-memory and durable deadlines of a run started now, from its column's timeout. -/
def startDeadlines (column : Column) : Option Instant × Option Int :=
  let timeoutMs := column.timeoutMinutes.map fun m =>
    saturatingMul (saturatingMul (max m 0) cfg.timeoutUnitSecs) 1000
  (timeoutMs.bind fun ms => checkedInstant (env.instant + ms),
    timeoutMs.map fun ms => saturatingAdd env.wallNowMs ms)

/-- Promote a run whose row is still queued, and watch it. -/
def tryRegister (runId : Int) (handle : RuntimeHandle) (started : Instant)
    (timeoutDeadline : Option Instant) (timeoutDeadlineAtMs : Option Int) : DaemonM Bool := do
  let run ← store (getRun runId)
  let d ← get
  if run.endedAt.isSome ∨ run.startedAt.isSome then pure false
  else
    let card ← okOr (d.db.card? run.cardId) (.notFound s!"card {run.cardId}")
    let _ ← store (promoteRunWithAnchorUow env.conn runId handle.workspaceId handle.paneId
      handle.anchorPaneId timeoutDeadlineAtMs handle.capturedSessionId)
    modify fun d =>
      { d with
        sched.active := d.sched.active.insert runId
          { cardId := card.id, handle, started, timeoutDeadline,
            idleSince := none, awaitingSince := none, isLocal := handle.pid.isSome,
            paneId := handle.paneId } }
    pure true

/-- Register a spawned handle while its queued row is still open; kill it otherwise. -/
def registerSpawnedRun (runId : Int) (handle : RuntimeHandle) (started : Instant)
    (timeoutDeadline : Option Instant) (timeoutDeadlineAtMs : Option Int) : DaemonM Bool := fun d =>
  match tryRegister env runId handle started timeoutDeadline timeoutDeadlineAtMs d with
  | .ok true d => .ok true d
  | .ok false d => .ok false (d.kill handle)
  | .error e d => .error e (d.kill handle)

/-- Finish a never-started run as `fail` after a spawn error. -/
def failQueuedRun (runId : Int) (reason : String) : DaemonM Unit := do
  let _ ← store (finalizeRunUow env.conn
    { runId, outcome := .fail, summary := some reason, comments := [("system", reason)],
      targetColumnId := none, finalStatus := .failed, finalAwaitingReason := none, next := none })
  pure ()

/-! ## Claiming -/

/-- One step of the claim loop's state: the busy spaces, the active count, and the claims so far. -/
structure ClaimState where
  busy : List SpaceKey
  activeCount : Nat
  claimed : List (Run × Card)

/-- Claim capacity and one FIFO head per space. -/
def claimLoop (max : Nat) (s : ClaimState) : List (Run × Card) → ClaimState
  | [] => s
  | (run, card) :: queued =>
      if s.activeCount ≥ max then s
      else if SpaceKey.fromCard card ∈ s.busy then claimLoop max s queued
      else claimLoop max
        { busy := SpaceKey.fromCard card :: s.busy
          activeCount := s.activeCount + 1
          claimed := s.claimed ++ [(run, card)] } queued

/-- What a pass knows after reading the active runs. -/
def claimStart (active : List (Run × Card)) : ClaimState where
  busy := active.map fun rc => SpaceKey.fromCard rc.2
  activeCount := active.length
  claimed := []

end HerdrBoard.Daemon
