import HerdrBoard.Core.Db.Runs
import HerdrBoard.Core.Db.Projects
import HerdrBoard.Lib.Transition
import Mathlib.Data.List.Induction

/-!
# Operations of the store

The calls through which the store changes. A history of the store is any sequence of them, whether
they commit or fail. -/

namespace HerdrBoard.Core

open Lib

/-- The writing calls, with their arguments. -/
inductive Operation where
  | createCard (p : CardCreateParams)
  | createCardAndEnqueue (p : CardCreateParams) (run : EnqueueRun)
  | duplicateCard (id : Int)
  | updateCard (p : CardUpdateParams)
  | setCardArchived (id : Int) (archived : Bool)
  | moveCard (id targetColumn : Int) (position : Option Int)
  | moveCardAndEnqueue (id targetColumn : Int) (position : Option Int) (run : EnqueueRun)
  | transferCard (id targetBoard targetColumn : Int) (position : Option Int)
  | transferCardAndEnqueue (id targetBoard targetColumn : Int) (position : Option Int)
      (run : EnqueueRun)
  | deleteCard (id : Int)
  | setCardStatus (id : Int) (status : CardStatus)
  | setCardAwaiting (id : Int) (reason : AwaitingReason)
  | pauseRunTimeout (cardId : Int) (reason : AwaitingReason) (nowMs : Int)
  | resumeRunTimeout (cardId : Int) (status : CardStatus) (nowMs : Int)
  | enqueueRun (p : EnqueueRun)
  | promoteRun (runId : Int) (workspaceId paneId anchorPaneId : Option String)
      (timeoutDeadlineAtMs : Option Int) (capturedSessionId : Option String)
  | promoteCapturedSession (runId : Int) (sessionId : String)
  | finalizeRun (p : FinalizeRun)
  | createColumn (p : ColumnCreateParams)
  | updateColumn (p : ColumnUpdateParams)
  | reorderColumn (id position : Int)
  | deleteColumn (id : Int) (moveCardsTo : Option Int)
  | applyTemplateColumns (boardId : Int) (specs : List ColumnCreateParams)
      (wiring : List ColumnWiring)
  | addComment (cardId : Int) (author body : String)
  | updateComment (id : Int) (body : String)
  | softDeleteComment (id : Int)
  | openBoard (scopePath : String)
  | createProjectContext (scopePath : String)
  | openProjectContext (scopePath : String)
  | selectProjectByScope (scopePath : String) (boardId : Option Int)
  | selectBoard (boardId : Int)
  | createBoard (projectId : Int) (name : String)
  | renameBoard (id : Int) (name : String)
  | setBoardArchived (boardId : Int) (archived : Bool)
  | setProjectArchived (scopePath : String) (archived : Bool)

/-- A call whose answer is dropped. -/
def dropping {α : Type} (x : StoreM α) : StoreM Unit := do
  let _ ← x
  pure ()

@[simp] theorem dropping_ok {α : Type} {x : StoreM α} {db db' : Db} {u : Unit} :
    dropping x db = .ok u db' ↔ ∃ a, x db = .ok a db' := by
  simp only [dropping, bind_ok, pure_ok]
  constructor
  · rintro ⟨a, _, hx, -, rfl⟩
    exact ⟨a, hx⟩
  · rintro ⟨a, hx⟩
    exact ⟨a, db', hx, trivial, rfl⟩

@[simp] theorem finalState_dropping {α : Type} {x : StoreM α} (db : Db) :
    finalState (dropping x db) = finalState (x db) := by
  unfold dropping
  rw [run_bind]
  cases x db <;> rfl

theorem respects_dropping {α : Type} {R : Db → Db → Prop} {x : StoreM α} (h : Respects R x) :
    Respects R (dropping x) := by
  intro db
  rw [finalState_dropping]
  exact h db

/-- Call the store. -/
def Operation.run (conn : Conn) : Operation → StoreM Unit
  | .createCard p => dropping (Core.createCard conn p)
  | .createCardAndEnqueue p run => dropping (createCardAndEnqueueUow conn p run)
  | .duplicateCard id => dropping (Core.duplicateCard conn id)
  | .updateCard p => dropping (Core.updateCard conn p)
  | .setCardArchived id archived => dropping (Core.setCardArchived conn id archived)
  | .moveCard id targetColumn position => dropping (Core.moveCard conn id targetColumn position)
  | .moveCardAndEnqueue id targetColumn position run =>
      dropping (moveCardAndEnqueueUow conn id targetColumn position run)
  | .transferCard id targetBoard targetColumn position =>
      dropping (Core.transferCard conn id targetBoard targetColumn position)
  | .transferCardAndEnqueue id targetBoard targetColumn position run =>
      dropping (transferCardAndEnqueueUow conn id targetBoard targetColumn position run)
  | .deleteCard id => Core.deleteCard id
  | .setCardStatus id status => dropping (Core.setCardStatus conn id status)
  | .setCardAwaiting id reason => dropping (Core.setCardAwaiting conn id reason)
  | .pauseRunTimeout cardId reason nowMs => dropping (pauseRunTimeoutUow conn cardId reason nowMs)
  | .resumeRunTimeout cardId status nowMs => dropping (resumeRunTimeoutUow conn cardId status nowMs)
  | .enqueueRun p => dropping (enqueueRunUow conn p)
  | .promoteRun runId workspaceId paneId anchorPaneId deadline captured =>
      dropping (promoteRunWithAnchorUow conn runId workspaceId paneId anchorPaneId
        deadline captured)
  | .promoteCapturedSession runId sessionId =>
      dropping (promoteCapturedSessionUow conn runId sessionId)
  | .finalizeRun p => dropping (finalizeRunUow conn p)
  | .createColumn p => dropping (Core.createColumn p)
  | .updateColumn p => dropping (Core.updateColumn p)
  | .reorderColumn id position => dropping (Core.reorderColumn id position)
  | .deleteColumn id moveCardsTo => Core.deleteColumn conn id moveCardsTo
  | .applyTemplateColumns boardId specs wiring =>
      dropping (applyTemplateColumnsUow boardId specs wiring)
  | .addComment cardId author body => dropping (Core.addComment conn cardId author body)
  | .updateComment id body => dropping (Core.updateComment conn id body)
  | .softDeleteComment id => dropping (Core.softDeleteComment conn id)
  | .openBoard scopePath => dropping (Core.openBoard scopePath)
  | .createProjectContext scopePath => dropping (Core.createProjectContext scopePath)
  | .openProjectContext scopePath => dropping (Core.openProjectContext scopePath)
  | .selectProjectByScope scopePath boardId =>
      dropping (Core.selectProjectByScope scopePath boardId)
  | .selectBoard boardId => dropping (Core.selectBoard boardId)
  | .createBoard projectId name => dropping (Core.createBoard projectId name)
  | .renameBoard id name => dropping (Core.renameBoard id name)
  | .setBoardArchived boardId archived => dropping (Core.setBoardArchived conn boardId archived)
  | .setProjectArchived scopePath archived =>
      dropping (Core.setProjectArchived conn scopePath archived)

/-- Histories of the store. -/
def history : System Db (Conn × Operation) where
  init db := db = Db.fresh
  step db call db' := db' = finalState (call.2.run call.1 db)

/-- A property that no call breaks holds throughout every history. -/
theorem history_invariant {ok : Db → Conn × Operation → Prop} {I : Db → Prop} (hfresh : I Db.fresh)
    (hcall : ∀ db conn op, I db → ok db (conn, op) → I (finalState (op.run conn db))) {db : Db}
    (h : history.ReachableBy ok db) : I db := by
  refine h.invariant (fun db hdb => ?_) fun db call db' hI hok hstep => ?_
  · have hdb : db = Db.fresh := hdb
    exact hdb ▸ hfresh
  · have hstep : db' = finalState (call.2.run call.1 db) := hstep
    exact hstep ▸ hcall db call.1 call.2 hI hok

/-- The store after some calls, from a fresh one. -/
def afterCalls (calls : List (Conn × Operation)) : Db :=
  calls.foldl (fun db call => finalState (call.2.run call.1 db)) Db.fresh

theorem reachableBy_afterCalls {ok : Db → Conn × Operation → Prop} (calls : List (Conn × Operation))
    (hok : ∀ db, ∀ call ∈ calls, ok db call) : history.ReachableBy ok (afterCalls calls) := by
  induction calls using List.reverseRecOn with
  | nil => exact .init rfl
  | append_singleton calls call ih =>
      rw [afterCalls, List.foldl_append]
      have hstart := ih fun db call hcall => hok db call (List.mem_append_left _ hcall)
      exact hstart.step (hok _ call (List.mem_append_right _ (List.mem_singleton_self call))) rfl

theorem reachable_afterCalls (calls : List (Conn × Operation)) :
    history.Reachable (afterCalls calls) :=
  reachableBy_afterCalls calls fun _ _ _ => trivial

end HerdrBoard.Core
