import HerdrBoard.Core.Protocol

/-!
# Lifecycle decisions
-/

namespace HerdrBoard.Core

inductive LifecycleAction where
  | done (outcome : RunOutcome)
  | cancel
  | timeout
  | paneExited
  deriving DecidableEq, Repr

/-- Whether an open run belongs to a managed built-in or a configured harness. -/
inductive LifecycleHarness where
  | builtIn
  | configured
  deriving DecidableEq, Repr

structure LifecycleFacts where
  openRunId : Option Int
  suppliedRunId : Option Int
  started : Bool
  harness : LifecycleHarness
  cardStatus : CardStatus
  deriving DecidableEq, Repr

structure FinalizePlan where
  outcome : RunOutcome
  kill : Bool
  transition : Bool
  deriving DecidableEq, Repr

inductive LifecycleRejection where
  | noOpenRun
  | suppliedRunIdMismatch (expected supplied : Int)
  | queuedCompletionRequiresRunId
  | queuedBuiltinCompletion
  | paneExitRequiresRunId
  | paneExitBuiltin
  | timeoutBeforeStart
  | timeoutPaused
  deriving DecidableEq, Repr

inductive LifecycleDecision where
  | finalize (plan : FinalizePlan)
  | reject (rejection : LifecycleRejection)
  deriving DecidableEq, Repr

/-- Decide an action on a run that is open and is the one the caller named, if it named one. -/
def decideOpenRun (facts : LifecycleFacts) : LifecycleAction → LifecycleDecision
  | .done outcome =>
      if ¬facts.started ∧ facts.harness = .builtIn then .reject .queuedBuiltinCompletion
      else if ¬facts.started ∧
        facts.suppliedRunId = none then .reject .queuedCompletionRequiresRunId
      else .finalize { outcome, kill := false, transition := true }
  | .cancel => .finalize { outcome := .cancelled, kill := facts.started, transition := false }
  | .timeout =>
      if ¬facts.started then .reject .timeoutBeforeStart
      else if facts.cardStatus = .awaiting then .reject .timeoutPaused
      else .finalize { outcome := .fail, kill := true, transition := true }
  | .paneExited =>
      if facts.suppliedRunId = none then .reject .paneExitRequiresRunId
      else if facts.harness = .builtIn then .reject .paneExitBuiltin
      else .finalize { outcome := .fail, kill := false, transition := false }

/-- Decide whether a lifecycle operation is eligible to finalize its run. -/
def decideLifecycle (facts : LifecycleFacts) (action : LifecycleAction) : LifecycleDecision :=
  match facts.openRunId, facts.suppliedRunId with
  | none, _ => .reject .noOpenRun
  | some openRunId, some supplied =>
      if supplied ≠ openRunId then .reject (.suppliedRunIdMismatch openRunId supplied)
      else decideOpenRun facts action
  | some _, none => decideOpenRun facts action

end HerdrBoard.Core
