import HerdrBoard.Core.Db.CardsComments
import HerdrBoard.Lib.Transition

/-!
# The lifecycle of cards and runs

What the store is for: a card is closed, or it has one open run, which waits, works or is reviewed.
The state keeps the runs and, of each card, what its runs decide about it. The events are the ways
it may change. -/

open Lib HerdrBoard.Core

namespace HerdrBoard.Lifecycle

/-- What the runs of a card decide about it, and the space it occupies while one is open. -/
structure CardState where
  id : Int
  space : SpaceKey
  status : CardStatus
  awaitingReason : Option AwaitingReason
  sessionId : Option String

instance : Keyed CardState := ⟨CardState.id⟩

@[simp] theorem key_cardState (c : CardState) : Keyed.key c = c.id := rfl

structure Life where
  cards : Table CardState
  runs : Table Run

namespace Life

variable (l : Life)

/-- No run of the card is open. -/
def Closed (cardId : Int) : Prop := ∀ r ∈ l.runs, r.cardId = cardId → r.isOpen = false

/-- Rewrite one card. -/
def setCard (id : Int) (f : CardState → CardState)
    (hf : ∀ c, Keyed.key (f c) = Keyed.key c := by intro c; exact Eq.trans rfl rfl) :
    Table CardState :=
  l.cards.update (fun c => c.id == id) f hf

/-- A card without runs. -/
def newCard (space : SpaceKey) (id : Int) : CardState where
  id
  space
  status := .idle
  awaitingReason := none
  sessionId := none

@[simp] theorem newCard_id (space : SpaceKey) (id : Int) : (newCard space id).id = id := rfl

def create (space : SpaceKey) : Life := { l with cards := l.cards.insert (newCard space) }

/-- Deleting a card deletes its runs. -/
def remove (id : Int) : Life where
  cards := l.cards.delete fun c => c.id == id
  runs := l.runs.delete fun r => r.cardId == id

def respace (id : Int) (space : SpaceKey) : Life :=
  { l with cards := l.setCard id fun c => { c with space } }

theorem key_queuedRun (cardId : Int) (p : EnqueueRun) :
    ∀ k, Keyed.key (queuedRun cardId p k) = k := fun _ => rfl

def enqueue (cardId : Int) (p : EnqueueRun) : Life where
  cards := l.setCard cardId fun c =>
    { c with status := .queued, awaitingReason := none, sessionId := p.sessionId <|> c.sessionId }
  runs := l.runs.insert (queuedRun cardId p) (key_queuedRun cardId p)

def endRun (runId : Int) (now : String) (outcome : RunOutcome) (summary : Option String) :
    Table Run :=
  l.runs.update (fun r => r.id == runId) fun r =>
    { r with endedAt := some now, outcome := some outcome, resultSummary := summary }

/-- End a run and leave its card without one. -/
def finish (run : Run) (now : String) (outcome : RunOutcome) (summary : Option String)
    (status : CardStatus) : Life where
  cards := l.setCard run.cardId fun c => { c with status := status, awaitingReason := none }
  runs := l.endRun run.id now outcome summary

/-- End a run and insert the next one. The card's conversation stays the one it was. -/
def hop (run : Run) (now : String) (outcome : RunOutcome) (summary : Option String)
    (next : EnqueueRun) : Life where
  cards := l.setCard run.cardId fun c => { c with status := .queued, awaitingReason := none }
  runs := (l.endRun run.id now outcome summary).insert (queuedRun run.cardId next)
    (key_queuedRun run.cardId next)

/-- What a launch records. -/
structure Launch where
  now : String
  workspaceId : Option String
  paneId : Option String
  anchorPaneId : Option String
  deadlineAtMs : Option Int
  captured : Option String

def Launch.start (a : Launch) (r : Run) : Run :=
  { r with
    startedAt := some a.now
    herdrWorkspaceId := a.workspaceId
    herdrPaneId := a.paneId
    herdrAnchorPaneId := a.anchorPaneId
    timeoutDeadlineAtMs := a.deadlineAtMs
    timeoutPausedAtMs := none
    sessionId := a.captured <|> r.sessionId }

def promote (run : Run) (a : Launch) : Life where
  cards := l.setCard run.cardId fun c =>
    { c with status := .running, awaitingReason := none, sessionId := a.captured <|> c.sessionId }
  runs := l.runs.update (fun r => r.id == run.id) a.start

/-- A signal sets the status of a card whose run is active, and pauses or resumes the
run's timeout. -/
def signal (run : Run) (status : CardStatus) (reason : Option AwaitingReason)
    (deadline paused : Option Int) : Life where
  cards := l.setCard run.cardId fun c => { c with status := status, awaitingReason := reason }
  runs := l.runs.update (fun r => r.id == run.id) fun r =>
    { r with timeoutDeadlineAtMs := deadline, timeoutPausedAtMs := paused }

end Life

/-! ## Events -/

/-- What happens to cards and runs, with the id of the card or run it happens to. -/
inductive Event where
  | create
  | remove (cardId : Int)
  | respace (cardId : Int)
  | enqueue (cardId : Int) (p : EnqueueRun)
  | promote (runId : Int) (a : Life.Launch)
  | signal (runId : Int)
  | finish (runId : Int)
  | hop (runId : Int) (next : EnqueueRun)

/-- Statuses of a card with an active run. -/
def isActiveStatus (s : CardStatus) : Prop := s = .running ∨ s = .blocked ∨ s = .awaiting

/-- Statuses of a card without an open run. -/
def isClosedStatus (s : CardStatus) : Prop := s = .idle ∨ s = .failed ∨ s = .done

inductive Step (l : Life) : Event → Life → Prop
  | create (space : SpaceKey) : Step l .create (l.create space)
  | remove (id : Int) (hclosed : l.Closed id) : Step l (.remove id) (l.remove id)
  | respace (id : Int) (space : SpaceKey) (hclosed : l.Closed id) :
      Step l (.respace id) (l.respace id space)
  | enqueue (cardId : Int) (p : EnqueueRun) (hclosed : l.Closed cardId)
      (hcard : (l.cards.find? cardId).isSome) : Step l (.enqueue cardId p) (l.enqueue cardId p)
  | promote (run : Run) (a : Life.Launch) (hrun : run ∈ l.runs) (hqueued : run.isQueued = true) :
      Step l (.promote run.id a) (l.promote run a)
  | signal (run : Run) (status : CardStatus) (reason : Option AwaitingReason)
      (deadline paused : Option Int)
      (hrun : run ∈ l.runs) (hactive : run.isActive = true) (hstatus : isActiveStatus status)
      (hreason : status = .awaiting ↔ reason.isSome) (hpaused : status = .awaiting ↔
      paused.isSome) : Step l (.signal run.id) (l.signal run status reason deadline paused)
  | finish (run : Run) (now : String) (outcome : RunOutcome) (summary : Option String)
      (status : CardStatus)
      (hrun : run ∈ l.runs) (hopen : run.isOpen = true) (hstatus : isClosedStatus status) :
      Step l (.finish run.id) (l.finish run now outcome summary status)
  | hop (run : Run) (now : String) (outcome : RunOutcome) (summary : Option String)
      (next : EnqueueRun) (hrun : run ∈ l.runs) (hopen : run.isOpen = true) :
      Step l (.hop run.id next) (l.hop run now outcome summary next)

/-- The lifecycle as a transition system. -/
def lifecycle : System Life Event where
  init l := l.cards = .empty ∧ l.runs = .empty
  step l e l' := Step l e l'

end HerdrBoard.Lifecycle
