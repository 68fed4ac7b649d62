import HerdrBoard.Core.Model

/-!
# Transition decisions
-/

namespace HerdrBoard.Core

/-- The maximum number of automatic column hops allowed before human action. -/
def MAX_AUTO_HOPS : Nat := 8

/-- Column to move the card into (`none` to stay), its status, and whether to enqueue
a fresh run. -/
structure TransitionDecision where
  targetColumnId : Option Int
  newStatus : CardStatus
  enqueue : Bool
  systemComment : String
  deriving DecidableEq, Repr

inductive AutoHopDecision where
  | continue (hop : Nat)
  | stop (message : String)
  | reset
  deriving DecidableEq, Repr

/-- `u32::saturating_add(1)`. -/
def nextHop (currentHops : Nat) : Nat := min (currentHops + 1) (2 ^ 32 - 1)

def decideAutoHop (currentHops : Nat) (transition : TransitionDecision) : AutoHopDecision :=
  if ¬transition.enqueue then .reset
  else if nextHop currentHops > MAX_AUTO_HOPS then
    .stop s!"auto-chain limit ({MAX_AUTO_HOPS}) reached without human action; stopping"
  else .continue (nextHop currentHops)

/-! ## Resumability -/

inductive ResumabilityDecision where
  | resumable
  | fresh
  deriving DecidableEq, Repr

/-- The author of the comments of a run's agent. -/
def agentAuthor (runId : Int) : String := s!"agent:{runId}"

/-- A session id is safe to resume when a started run of that id posted its run-scoped
agent comment. -/
def decideResumability (sessionId : Option String) (runs : List Run) (comments : List Comment) :
    ResumabilityDecision :=
  match sessionId with
  | none => .fresh
  | some sessionId =>
      if runs.any fun run => run.startedAt.isSome && run.sessionId == some sessionId &&
          comments.any fun comment => comment.author == agentAuthor run.id
      then .resumable
      else .fresh

/-! ## Finished runs -/

def outcomeWord : RunOutcome → String
  | .ok => "ok"
  | .fail => "failed"
  | .cancelled => "cancelled"
  | .lost => "lost"

/-- Human-readable elapsed time, e.g. `4m12s`, `42s`, `1h3m`. -/
def formatDuration : Option Int → String
  | none => "unknown"
  | some s =>
      if s ≤ 0 then "0s"
      else if s < 60 then s!"{s}s"
      else if s < 3600 then s!"{s / 60}m{s % 60}s"
      else s!"{s / 3600}h{s % 3600 / 60}m"

/-- The column a finished run leads to. -/
def transitionTarget (current : Column) (columns : List Column) (outcome : RunOutcome) :
    Option Column :=
  let targetId := match outcome with
    | .ok => current.onSuccessColumnId
    | .fail => current.onFailColumnId
    | .cancelled | .lost => none
  targetId.bind fun id => columns.find? fun c => c.id == id

def decideTransition (current : Column) (columns : List Column) (outcome : RunOutcome)
    (elapsedSecs : Option Int) : TransitionDecision :=
  match transitionTarget current columns outcome with
  | some t =>
      { targetColumnId := some t.id
        newStatus := if t.trigger = .auto then .queued else .idle
        enqueue := t.trigger = .auto
        systemComment :=
          s!"{current.name} {outcomeWord outcome} in {formatDuration elapsedSecs} → {t.name}" }
  | none =>
      { targetColumnId := none
        newStatus := if outcome = .ok then .done else .failed
        enqueue := false
        systemComment :=
          s!"{current.name} {outcomeWord outcome} in {formatDuration elapsedSecs} (no target column, staying)" }

/-! ## Entering a column -/

structure EntryDecision where
  newStatus : CardStatus
  enqueue : Bool
  notify : Bool
  deriving DecidableEq, Repr

/-- What entering `target` does for a card in `statusBefore`. -/
def decideEntry (target : Column) (statusBefore : CardStatus) (viaAutoTransition : Bool) :
    EntryDecision :=
  match target.trigger, statusBefore with
  | .auto, .idle | .auto, .failed | .auto, .done =>
      { newStatus := .queued, enqueue := true, notify := false }
  | .auto, _ => { newStatus := statusBefore, enqueue := false, notify := false }
  | .manual, _ => { newStatus := .idle, enqueue := false, notify := viaAutoTransition }

end HerdrBoard.Core
