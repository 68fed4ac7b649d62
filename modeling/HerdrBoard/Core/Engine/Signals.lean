import HerdrBoard.Core.Protocol

/-!
# Agent signals
-/

namespace HerdrBoard.Core

/-- A signal from the agent's pane, as observed by the daemon's watchers. -/
inductive AgentSignal where
  | working
  | blocked
  | done
  | idleExpired
  deriving DecidableEq, Repr

structure SignalDecision where
  newStatus : CardStatus
  awaitingReason : Option AwaitingReason
  emitNotification : Option String
  deriving DecidableEq, Repr

/-- Map an agent signal onto a card-status decision; `none` for stale and no-op signals. -/
def decideSignal (cardStatus : CardStatus) (signal : AgentSignal) : Option SignalDecision :=
  if ¬(cardStatus = .running ∨ cardStatus = .blocked ∨ cardStatus = .awaiting) then none
  else match signal with
    | .working =>
        if cardStatus = .running then none
        else some { newStatus := .running, awaitingReason := none, emitNotification := none }
    | .blocked =>
        if cardStatus = .blocked then none
        else some
          { newStatus := .blocked, awaitingReason := none,
            emitNotification := some "is blocked (needs input)" }
    | .done => some
        { newStatus := .awaiting
          awaitingReason := some .agentDone
          emitNotification :=
            if cardStatus = .awaiting then none
            else some "agent finished without `board done`; card is awaiting review" }
    | .idleExpired =>
        if cardStatus = .awaiting then none
        else some
          { newStatus := .awaiting
            awaitingReason := some .idleExpired
            emitNotification := some
              ("agent idle past the grace period without `board done`; " ++
                "card is awaiting review") }

end HerdrBoard.Core
