import HerdrBoard.Core.Lemmas.Frames

/-!
# Calls that move nothing

What is kept by the calls that rewrite a card without moving it, and a run without ending it.
-/

namespace HerdrBoard.Core

open Lib

variable {γ : Type} {π : Tables → γ} {conn : Conn}

/-- A card stands where it stood. -/
def Unmoved (f : Card → Card) : Prop := ∀ c, (f c).boardId = c.boardId ∧
    (f c).columnId = c.columnId ∧ (f c).position = c.position

/-- A run is the same card's, in the same column, and as open as it was. -/
def Unended (f : Run → Run) : Prop :=
  ∀ r, (f r).cardId = r.cardId ∧ (f r).columnId = r.columnId ∧ (f r).isOpen = r.isOpen

/-- The image sees of a card only where it stands, and of a run only whose it is, in which column,
and whether it is open. -/
structure StandingBlind (π : Tables → γ) : Prop where
  cards : ∀ (t : Tables) p f hkey, Unmoved f → π { t with cards := t.cards.update p f hkey } = π t
  runs : ∀ (t : Tables) p f hkey, Unended f → π { t with runs := t.runs.update p f hkey } = π t

def RunBlind (π : Tables → γ) : Prop := ∀ t runs, π { t with runs := runs } = π t

section Standing

variable (hπ : StandingBlind π)

include hπ

theorem keeps_standing_updateCards {p : Card → Bool} {f : Card → Card} {hkey} (hf : Unmoved f) :
    KeepsTables π (updateCards p f hkey) := keeps_updateCards fun t => hπ.cards t p f hkey hf

theorem keeps_standing_updateRuns {p : Run → Bool} {f : Run → Run} {hkey} (hf : Unended f) :
    KeepsTables π (updateRuns p f hkey) := keeps_exec fun t => hπ.runs t p f hkey hf

theorem keeps_standing_updateCard (p : CardUpdateParams) : KeepsTables π (updateCard conn p) := by
  refine (readOnly_requireCard _).respects.bind fun current => ?_
  exact Respects.bind (keeps_standing_updateCards hπ fun _ => ⟨rfl, rfl, rfl⟩) fun _ =>
    (readOnly_requireCard _).respects

theorem keeps_standing_setCardArchived (id : Int) (archived : Bool) :
    KeepsTables π (setCardArchived conn id archived) := by
  refine (readOnly_requireCard _).respects.bind fun current => ?_
  exact Respects.bind (keeps_standing_updateCards hπ fun _ => ⟨rfl, rfl, rfl⟩) fun _ =>
    (readOnly_requireCard _).respects

theorem keeps_standing_setCardStatus (id : Int) (status : CardStatus) :
    KeepsTables π (setCardStatus conn id status) := by
  refine (readOnly_refuse _ _).respects.bind fun _ => ?_
  exact Respects.bind (keeps_standing_updateCards hπ fun _ => ⟨rfl, rfl, rfl⟩) fun _ =>
    (readOnly_requireCard _).respects

theorem keeps_standing_setCardAwaiting (id : Int) (reason : AwaitingReason) :
    KeepsTables π (setCardAwaiting conn id reason) :=
  Respects.bind (keeps_standing_updateCards hπ fun _ => ⟨rfl, rfl, rfl⟩) fun _ =>
    (readOnly_requireCard _).respects

theorem keeps_standing_pauseRunTimeoutUow (cardId : Int) (reason : AwaitingReason) (nowMs : Int) :
    KeepsTables π (pauseRunTimeoutUow conn cardId reason nowMs) := by
  refine Respects.bind (Respects.transaction ?_) fun _ => (readOnly_requireCard _).respects
  exact Respects.bind (keeps_standing_updateCards hπ fun _ => ⟨rfl, rfl, rfl⟩) fun _ =>
    keeps_standing_updateRuns hπ fun _ => ⟨rfl, rfl, rfl⟩

theorem keeps_standing_resumeRunTimeoutUow (cardId : Int) (status : CardStatus) (nowMs : Int) :
    KeepsTables π (resumeRunTimeoutUow conn cardId status nowMs) := by
  have hcard : KeepsTables π (do
      let _ ← updateCards (fun c => c.id == cardId) fun c =>
        { c with status := status, awaitingReason := none, updatedAt := conn.now }
      pure ()) :=
    Respects.bind (keeps_standing_updateCards hπ fun _ => ⟨rfl, rfl, rfl⟩) fun _ => respects_pure ()
  refine (readOnly_refuse _ _).respects.bind fun _ => ?_
  refine Respects.bind (Respects.transaction ?_) fun _ => (readOnly_requireCard _).respects
  refine readOnly_get.respects.bind fun db => ?_
  dsimp only
  split
  · exact Respects.bind (keeps_standing_updateRuns hπ fun _ => ⟨rfl, rfl, rfl⟩) fun _ => hcard
  · exact hcard

theorem keeps_standing_promoteRunWithAnchorUow (runId : Int)
    (workspaceId paneId anchorPaneId : Option String)
    (deadline : Option Int) (captured : Option String) :
    KeepsTables π (promoteRunWithAnchorUow conn runId workspaceId paneId anchorPaneId deadline
      captured) := by
  refine Respects.bind (Respects.transaction ?_) fun _ => (readOnly_getRun _).respects
  refine readOnly_get.respects.bind fun db => (readOnly_okOr _ _).respects.bind fun run => ?_
  refine Respects.bind (keeps_standing_updateRuns hπ fun _ => ⟨rfl, rfl, rfl⟩) fun _ =>
    (readOnly_lifecycleFault _ _).respects.bind fun _ => ?_
  have hlast : KeepsTables π (do
      let _ ← updateCards (fun c => c.id == run.cardId) fun c =>
        { c with
          status := .running, awaitingReason := none, sessionId := captured <|> c.sessionId,
          updatedAt := conn.now }
      pure ()) :=
    Respects.bind (keeps_standing_updateCards hπ fun _ => ⟨rfl, rfl, rfl⟩) fun _ => respects_pure ()
  split
  · exact (readOnly_lifecycleFault _ _).respects.bind fun _ => hlast
  · exact hlast

theorem keeps_standing_promoteCapturedSessionUow (runId : Int) (sessionId : String) :
    KeepsTables π (promoteCapturedSessionUow conn runId sessionId) := by
  refine (readOnly_refuse _ _).respects.bind fun _ => ?_
  refine Respects.bind (Respects.transaction ?_) fun _ => (readOnly_getRun _).respects
  refine readOnly_get.respects.bind fun db => (readOnly_okOr _ _).respects.bind fun run => ?_
  refine Respects.bind (keeps_standing_updateRuns hπ fun _ => ⟨rfl, rfl, rfl⟩) fun _ =>
    (readOnly_lifecycleFault _ _).respects.bind fun _ => ?_
  exact Respects.bind (keeps_standing_updateCards hπ fun _ => ⟨rfl, rfl, rfl⟩) fun _ =>
    respects_pure ()

/-! ## Queued runs -/

variable (hruns : RunBlind π)

include hruns

omit hπ in
theorem keeps_insertRun_runBlind {row : Int → Run} {hkey} : KeepsTables π (insertRun row hkey) :=
  keeps_execBetween fun t => hruns t _

omit hπ in
theorem keeps_updateRuns_runBlind {p : Run → Bool} {f : Run → Run} {hkey} :
    KeepsTables π (updateRuns p f hkey) :=
  keeps_exec fun t => hruns t _

theorem keeps_standing_enqueueRunTx (cardId : Int) (p : EnqueueRun) :
    KeepsTables π (enqueueRunTx conn cardId p) := by
  refine Respects.bind (keeps_insertRun_runBlind hruns) fun _ =>
    (readOnly_lifecycleFault _ _).respects.bind fun _ => ?_
  refine Respects.bind (keeps_standing_updateCards hπ fun _ => ⟨rfl, rfl, rfl⟩) fun _ => ?_
  exact (readOnly_refuse _ _).respects.bind fun _ => respects_pure _

theorem keeps_standing_enqueueRunUow (p : EnqueueRun) : KeepsTables π (enqueueRunUow conn p) := by
  refine (readOnly_requireCard _).respects.bind fun card =>
    (readOnly_requireColumn _).respects.bind fun column => ?_
  refine (readOnly_refuse _ _).respects.bind fun _ => ?_
  exact (keeps_standing_enqueueRunTx hπ hruns _ _).transaction.bind fun _ =>
    (readOnly_getRun _).respects

theorem keeps_standing_insertNext (cardId : Int) (next : Option EnqueueRun) :
    KeepsTables π (insertNext cardId next) := by
  cases next with
  | none => exact respects_pure none
  | some next =>
      refine Respects.bind (keeps_insertRun_runBlind hruns) fun _ => ?_
      exact Respects.bind (keeps_standing_updateCards hπ fun _ => ⟨rfl, rfl, rfl⟩) fun _ =>
        respects_pure _

end Standing

end HerdrBoard.Core
