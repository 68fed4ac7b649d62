import HerdrBoard.Core.Lemmas.Frames
import HerdrBoard.Core.Db.Runs

/-!
# Units of work on cards and runs

What an image of the store that sees neither cards nor runs keeps.
-/

open Lib HerdrBoard.Core

namespace HerdrBoard.Comments

variable {γ : Type} {π : Tables → γ} {conn : Conn} (hπ : WorkBlind π)

include hπ

/-! ## Statements -/

theorem placeBlind_of_workBlind : PlaceBlind π := fun t _ _ _ _ => hπ t _ t.runs

theorem keeps_insertCard {row : Int → Card} {hkey} : KeepsTables π (insertCard row hkey) :=
  keeps_execBetween fun t => hπ t _ t.runs

theorem keeps_writeCards {p : Card → Bool} {f : Card → Card} {hkey} :
    KeepsTables π (updateCards p f hkey) :=
  keeps_updateCards fun t => hπ t _ t.runs

theorem keeps_insertRun {row : Int → Run} {hkey} : KeepsTables π (insertRun row hkey) :=
  keeps_execBetween fun t => hπ t t.cards _

theorem keeps_updateRuns {p : Run → Bool} {f : Run → Run} {hkey} :
    KeepsTables π (updateRuns p f hkey) :=
  keeps_exec fun t => hπ t t.cards _

/-! ## Enqueueing -/

theorem keeps_enqueueRunTx (cardId : Int) (p : EnqueueRun) :
    KeepsTables π (enqueueRunTx conn cardId p) := by
  refine (keeps_insertRun hπ).bind fun id =>
    (readOnly_lifecycleFault conn _).respects.bind fun _ => ?_
  exact (keeps_writeCards hπ).bind fun _ => (readOnly_refuse _ _).respects.bind fun _ =>
    respects_pure id

theorem keeps_enqueueRunUow (p : EnqueueRun) : KeepsTables π (enqueueRunUow conn p) := by
  refine (readOnly_requireCard _).respects.bind fun _ =>
    (readOnly_requireColumn _).respects.bind fun _ => ?_
  refine (readOnly_refuse _ _).respects.bind fun _ => ?_
  exact (keeps_enqueueRunTx hπ _ p).transaction.bind fun id => (readOnly_getRun id).respects

theorem keeps_createCardAndEnqueueUow (p : CardCreateParams) (run : EnqueueRun) :
    KeepsTables π (createCardAndEnqueueUow conn p run) := by
  refine (readOnly_getBoard _).respects.bind fun _ =>
    (readOnly_defaultColumnId _).respects.bind fun _ => ?_
  refine (readOnly_requireColumn _).respects.bind fun _ =>
    (readOnly_refuse _ _).respects.bind fun _ => ?_
  refine (readOnly_refuse _ _).respects.bind fun _ => readOnly_get.respects.bind fun db => ?_
  refine Respects.bind (Respects.transaction ?_) fun ids =>
    (readOnly_requireCard ids.1).respects.bind fun _ =>
    (readOnly_getRun ids.2).respects.bind fun _ => respects_pure _
  refine (keeps_insertCard hπ).bind fun cardId => ?_
  have henqueue : KeepsTables π (do
      let runId ← enqueueRunTx conn cardId run
      pure (cardId, runId)) := (keeps_enqueueRunTx hπ cardId run).bind fun _ => respects_pure _
  exact respects_ite (fun _ => (keeps_placeCardInColumnTx (placeBlind_of_workBlind hπ) _ _ _).bind
    fun _ => henqueue) fun _ => henqueue

theorem keeps_moveCardAndEnqueueUow (id column : Int) (position : Option Int) (run : EnqueueRun) :
    KeepsTables π (moveCardAndEnqueueUow conn id column position run) := by
  have hplaces := placeBlind_of_workBlind hπ
  refine (readOnly_requireCard id).respects.bind fun card =>
    (readOnly_requireColumn column).respects.bind fun _ => ?_
  refine (readOnly_refuse _ _).respects.bind fun _ =>
    (readOnly_refuse _ _).respects.bind fun _ => ?_
  refine readOnly_get.respects.bind fun _ => (readOnly_refuse _ _).respects.bind fun _ => ?_
  refine Respects.bind (Respects.transaction ?_) fun runId =>
    (readOnly_requireCard id).respects.bind fun _ =>
    (readOnly_getRun runId).respects.bind fun _ => respects_pure _
  refine (keeps_writeCards hπ).bind fun _ =>
    (keeps_placeCardInColumnTx hplaces _ _ _).bind fun _ => ?_
  exact respects_ite (fun _ => (keeps_renumberColumnCardsTx hplaces _).bind fun _ =>
    keeps_enqueueRunTx hπ id run) fun _ => keeps_enqueueRunTx hπ id run

theorem keeps_transferCardAndEnqueueUow (id board column : Int) (position : Option Int)
    (run : EnqueueRun) :
    KeepsTables π (transferCardAndEnqueueUow conn id board column position run) := by
  have hplaces := placeBlind_of_workBlind hπ
  refine (readOnly_requireCard id).respects.bind fun card =>
    (readOnly_getBoard board).respects.bind fun _ => ?_
  refine (readOnly_requireColumn column).respects.bind fun _ =>
    (readOnly_refuse _ _).respects.bind fun _ => ?_
  refine (readOnly_refuse _ _).respects.bind fun _ => readOnly_get.respects.bind fun _ => ?_
  refine (readOnly_refuse _ _).respects.bind fun _ => ?_
  refine Respects.bind (Respects.transaction ?_) fun runId =>
    (readOnly_requireCard id).respects.bind fun _ =>
    (readOnly_getRun runId).respects.bind fun _ => respects_pure _
  refine (keeps_writeCards hπ).bind fun _ =>
    (keeps_placeCardInColumnTx hplaces _ _ _).bind fun _ => ?_
  exact (keeps_renumberColumnCardsTx hplaces _).bind fun _ => keeps_enqueueRunTx hπ id run

/-! ## Cards -/

theorem keeps_transferCard (id board column : Int) (position : Option Int) :
    KeepsTables π (transferCard conn id board column position) := by
  have hplaces := placeBlind_of_workBlind hπ
  refine Respects.bind (Respects.transaction ?_) fun _ => (readOnly_requireCard id).respects
  refine (readOnly_requireCard id).respects.bind fun card =>
    (readOnly_getBoard board).respects.bind fun _ => ?_
  refine (readOnly_requireColumn column).respects.bind fun _ =>
    (readOnly_refuse _ _).respects.bind fun _ => ?_
  refine (keeps_writeCards hπ).bind fun _ =>
    (keeps_placeCardInColumnTx hplaces _ _ _).bind fun _ => ?_
  exact keeps_renumberColumnCardsTx hplaces _

theorem keeps_createCard (p : CardCreateParams) : KeepsTables π (createCard conn p) :=
  respects_createCard_of (fun _ _ => keeps_insertCard hπ) fun id columnId position =>
    keeps_moveCard (placeBlind_of_workBlind hπ) conn id columnId position

theorem keeps_duplicateCard (id : Int) : KeepsTables π (duplicateCard conn id) := by
  refine (readOnly_requireCard id).respects.bind fun card => ?_
  refine Respects.bind (Respects.transaction ?_) fun copyId =>
    (readOnly_requireCard copyId).respects
  refine readOnly_get.respects.bind fun db => (keeps_insertCard hπ).bind fun copyId => ?_
  exact (keeps_placeCardInColumnTx (placeBlind_of_workBlind hπ) _ _ _).bind fun _ =>
    respects_pure copyId

theorem keeps_updateCard (p : CardUpdateParams) : KeepsTables π (updateCard conn p) :=
  (readOnly_requireCard _).respects.bind fun _ => (keeps_writeCards hπ).bind fun _ =>
    (readOnly_requireCard _).respects

theorem keeps_setCardArchived (id : Int) (archived : Bool) :
    KeepsTables π (setCardArchived conn id archived) :=
  (readOnly_requireCard id).respects.bind fun _ => (keeps_writeCards hπ).bind fun _ =>
    (readOnly_requireCard id).respects

/-! ## Runs -/

theorem keeps_promoteRunWithAnchorUow (runId : Int)
    (workspaceId paneId anchorPaneId : Option String)
    (deadline : Option Int) (captured : Option String) :
    KeepsTables π (promoteRunWithAnchorUow conn runId workspaceId paneId anchorPaneId deadline
      captured) := by
  refine Respects.bind (Respects.transaction ?_) fun _ => (readOnly_getRun runId).respects
  refine readOnly_get.respects.bind fun db => (readOnly_okOr _ _).respects.bind fun run => ?_
  refine (keeps_updateRuns hπ).bind fun _ =>
    (readOnly_lifecycleFault conn _).respects.bind fun _ => ?_
  refine respects_ite (fun _ => (readOnly_lifecycleFault conn _).respects.bind fun _ => ?_) fun _ =>
    ?_
  all_goals exact (keeps_writeCards hπ).bind fun _ => respects_pure ()

theorem keeps_setCardStatus (id : Int) (status : CardStatus) :
    KeepsTables π (setCardStatus conn id status) :=
  (readOnly_refuse _ _).respects.bind fun _ => (keeps_writeCards hπ).bind fun _ =>
    (readOnly_requireCard id).respects

theorem keeps_setCardAwaiting (id : Int) (reason : AwaitingReason) :
    KeepsTables π (setCardAwaiting conn id reason) :=
  (keeps_writeCards hπ).bind fun _ => (readOnly_requireCard id).respects

theorem keeps_pauseRunTimeoutUow (cardId : Int) (reason : AwaitingReason) (nowMs : Int) :
    KeepsTables π (pauseRunTimeoutUow conn cardId reason nowMs) := by
  refine Respects.bind (Respects.transaction ?_) fun _ => (readOnly_requireCard cardId).respects
  exact (keeps_writeCards hπ).bind fun _ => keeps_updateRuns hπ

theorem keeps_resumeRunTimeoutUow (cardId : Int) (status : CardStatus) (nowMs : Int) :
    KeepsTables π (resumeRunTimeoutUow conn cardId status nowMs) := by
  have hcard : KeepsTables π (do
      let _ ← updateCards (fun c => c.id == cardId) fun c =>
        { c with status := status, awaitingReason := none, updatedAt := conn.now }
      pure ()) := (keeps_writeCards hπ).bind fun _ => respects_pure ()
  refine (readOnly_refuse _ _).respects.bind fun _ => ?_
  refine Respects.bind (Respects.transaction ?_) fun _ => (readOnly_requireCard cardId).respects
  refine readOnly_get.respects.bind fun db => ?_
  dsimp only
  split
  · exact (keeps_updateRuns hπ).bind fun _ => hcard
  · exact hcard

theorem keeps_insertNext (cardId : Int) (next : Option EnqueueRun) :
    KeepsTables π (insertNext cardId next) := by
  cases next with
  | none => exact respects_pure none
  | some p => exact (keeps_insertRun hπ).bind fun id => (keeps_writeCards hπ).bind fun _ =>
      respects_pure (some id)

end HerdrBoard.Comments
