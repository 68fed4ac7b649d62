import HerdrBoard.Editing.Seated

/-!
# Every board to itself

In every history of the store the boards stay apart: no card, transition or open run crosses from
one to another, and a call that asks for it is refused. -/

open Lib HerdrBoard.Core HerdrBoard.Daemon HerdrBoard.Lifecycle

namespace HerdrBoard.Editing

variable {conn : Conn} {db db' : Db}

theorem sameBorders (s t : Db) (h : SameBy (fun db : Db => Tables.borders db.toTables) s t) :
    StaysBounded s t := fun hs => hs.of_borders h

theorem sameSeating (s t : Db) (h : SameBy (fun db : Db => Tables.seating db.toTables) s t) :
    StaysSeated s t := fun hs => hs.of_seating h

/-! ## Calls -/

theorem staysBounded_run (conn : Conn) (op : Operation) : Respects StaysBounded (op.run conn) := by
  have hstanding {α : Type} {x : StoreM α}
      (h : StandingBlind Tables.borders → RunBlind Tables.borders → KeepsTables Tables.borders x) :
      Respects StaysBounded (dropping x) :=
    respects_dropping (staysBounded_of_keeps (h standingBlind_borders runBlind_borders))
  have hkeeps {α : Type} {x : StoreM α} (h : KeepsTables Tables.borders x) :
      Respects StaysBounded (dropping x) :=
    respects_dropping (staysBounded_of_keeps h)
  cases op with
  | createCard p => exact respects_dropping (staysBounded_createCard p)
  | createCardAndEnqueue p run =>
      exact respects_dropping (staysBounded_createCardAndEnqueueUow p run)
  | duplicateCard id => exact respects_dropping staysBounded_duplicateCard
  | updateCard p => exact hstanding fun h _ => keeps_standing_updateCard h p
  | setCardArchived id archived =>
      exact hstanding fun h _ => keeps_standing_setCardArchived h id archived
  | moveCard id column position =>
      exact respects_dropping (staysBounded_moveCard id column position)
  | moveCardAndEnqueue id column position run =>
      exact respects_dropping (staysBounded_moveCardAndEnqueueUow column position run)
  | transferCard id board column position =>
      exact respects_dropping (staysBounded_transferCard board column position)
  | transferCardAndEnqueue id board column position run =>
      exact respects_dropping (staysBounded_transferCardAndEnqueueUow board column position run)
  | deleteCard id => exact staysBounded_deleteCard
  | setCardStatus id status => exact hstanding fun h _ => keeps_standing_setCardStatus h id status
  | setCardAwaiting id reason =>
      exact hstanding fun h _ => keeps_standing_setCardAwaiting h id reason
  | pauseRunTimeout cardId reason nowMs =>
      exact hstanding fun h _ => keeps_standing_pauseRunTimeoutUow h cardId reason nowMs
  | resumeRunTimeout cardId status nowMs =>
      exact hstanding fun h _ => keeps_standing_resumeRunTimeoutUow h cardId status nowMs
  | enqueueRun p => exact hstanding fun h hruns => keeps_standing_enqueueRunUow h hruns p
  | promoteRun runId workspaceId paneId anchorPaneId deadline captured =>
      exact hstanding fun h _ => keeps_standing_promoteRunWithAnchorUow h runId workspaceId paneId
        anchorPaneId deadline captured
  | promoteCapturedSession runId sessionId =>
      exact hstanding fun h _ => keeps_standing_promoteCapturedSessionUow h runId sessionId
  | finalizeRun p => exact respects_dropping (staysBounded_finalizeRunUow p)
  | createColumn p => exact respects_dropping (staysBounded_createColumn p)
  | updateColumn p => exact respects_dropping (staysBounded_updateColumn p)
  | reorderColumn id position => exact hkeeps (keeps_borders_reorderColumn id position)
  | deleteColumn id dst => exact staysBounded_deleteColumn dst
  | applyTemplateColumns board specs wiring =>
      exact respects_dropping (staysBounded_applyTemplateColumnsUow specs wiring)
  | addComment cardId author body =>
      exact hkeeps (keeps_addComment commentBlind_borders conn cardId author body)
  | updateComment id body => exact hkeeps (keeps_updateComment commentBlind_borders conn id body)
  | softDeleteComment id => exact hkeeps (keeps_softDeleteComment commentBlind_borders conn id)
  | openBoard scopePath =>
      exact respects_dropping
        (respects_openBoard siteBlind_borders sameBorders staysBounded_seedTodoTx scopePath)
  | createProjectContext scopePath =>
      exact respects_dropping (respects_createProjectContext siteBlind_borders sameBorders
        staysBounded_seedTodoTx scopePath)
  | openProjectContext scopePath =>
      exact respects_dropping (respects_openProjectContext siteBlind_borders sameBorders
        staysBounded_seedTodoTx scopePath)
  | selectProjectByScope scopePath boardId =>
      exact hkeeps (keeps_selectProjectByScope siteBlind_borders.picker scopePath boardId)
  | selectBoard boardId => exact hkeeps (keeps_selectBoard siteBlind_borders.picker boardId)
  | createBoard projectId name =>
      exact respects_dropping (respects_createBoard siteBlind_borders sameBorders
        staysBounded_seedTodoTx projectId name)
  | renameBoard id name => exact hkeeps (keeps_renameBoard siteBlind_borders id name)
  | setBoardArchived boardId archived =>
      exact hkeeps (keeps_setBoardArchived siteBlind_borders conn boardId archived)
  | setProjectArchived scopePath archived =>
      exact hkeeps (keeps_setProjectArchived siteBlind_borders conn scopePath archived)

/-- A card is transferred while none of its runs is open. -/
def transfersAtRest (db : Db) (call : Conn × Operation) : Prop :=
  ∀ id board column position, call.2 = .transferCard id board column position →
    db.openRunForCard id = none

theorem staysSeated_run (op : Operation) (hrest : transfersAtRest db (conn, op)) :
    StaysSeated db (finalState (op.run conn db)) := by
  have hstanding {α : Type} {x : StoreM α}
      (h : StandingBlind Tables.seating → KeepsTables Tables.seating x) :
      StaysSeated db (finalState (dropping x db)) :=
    respects_dropping (staysSeated_of_keeps (h standingBlind_seating)) db
  have hkeeps {α : Type} {x : StoreM α} (h : KeepsTables Tables.seating x) :
      StaysSeated db (finalState (dropping x db)) :=
    respects_dropping (staysSeated_of_keeps h) db
  cases op with
  | createCard p => exact respects_dropping (staysSeated_createCard p) db
  | createCardAndEnqueue p run =>
      exact respects_dropping (staysSeated_createCardAndEnqueueUow p run) db
  | duplicateCard id => exact respects_dropping staysSeated_duplicateCard db
  | updateCard p => exact hstanding fun h => keeps_standing_updateCard h p
  | setCardArchived id archived =>
      exact hstanding fun h => keeps_standing_setCardArchived h id archived
  | moveCard id column position =>
      exact hkeeps (keeps_moveCard placeBlind_seating conn id column position)
  | moveCardAndEnqueue id column position run =>
      exact respects_dropping (staysSeated_moveCardAndEnqueueUow position run) db
  | transferCard id board column position =>
      simp only [Operation.run, finalState_dropping]
      exact staysSeated_transferCard (hrest id board column position rfl)
  | transferCardAndEnqueue id board column position run =>
      exact respects_dropping (staysSeated_transferCardAndEnqueueUow position run) db
  | deleteCard id => exact staysSeated_deleteCard db
  | setCardStatus id status => exact hstanding fun h => keeps_standing_setCardStatus h id status
  | setCardAwaiting id reason => exact hstanding fun h => keeps_standing_setCardAwaiting h id reason
  | pauseRunTimeout cardId reason nowMs =>
      exact hstanding fun h => keeps_standing_pauseRunTimeoutUow h cardId reason nowMs
  | resumeRunTimeout cardId status nowMs =>
      exact hstanding fun h => keeps_standing_resumeRunTimeoutUow h cardId status nowMs
  | enqueueRun p => exact respects_dropping (staysSeated_enqueueRunUow p) db
  | promoteRun runId workspaceId paneId anchorPaneId deadline captured =>
      exact hstanding fun h => keeps_standing_promoteRunWithAnchorUow h runId workspaceId paneId
        anchorPaneId deadline captured
  | promoteCapturedSession runId sessionId =>
      exact hstanding fun h => keeps_standing_promoteCapturedSessionUow h runId sessionId
  | finalizeRun p => exact respects_dropping (staysSeated_finalizeRunUow p) db
  | createColumn p => exact respects_dropping (staysSeated_createColumn p) db
  | updateColumn p => exact hkeeps (keeps_seating_updateColumn p)
  | reorderColumn id position => exact hkeeps (keeps_seating_reorderColumn id position)
  | deleteColumn id dst => exact staysSeated_deleteColumn dst db
  | applyTemplateColumns board specs wiring =>
      exact respects_dropping (staysSeated_applyTemplateColumnsUow specs wiring) db
  | addComment cardId author body =>
      exact hkeeps (keeps_addComment commentBlind_seating conn cardId author body)
  | updateComment id body => exact hkeeps (keeps_updateComment commentBlind_seating conn id body)
  | softDeleteComment id => exact hkeeps (keeps_softDeleteComment commentBlind_seating conn id)
  | openBoard scopePath =>
      exact respects_dropping
        (respects_openBoard siteBlind_seating sameSeating staysSeated_seedTodoTx scopePath) db
  | createProjectContext scopePath =>
      exact respects_dropping (respects_createProjectContext siteBlind_seating sameSeating
        staysSeated_seedTodoTx scopePath) db
  | openProjectContext scopePath =>
      exact respects_dropping (respects_openProjectContext siteBlind_seating sameSeating
        staysSeated_seedTodoTx scopePath) db
  | selectProjectByScope scopePath boardId =>
      exact hkeeps (keeps_selectProjectByScope siteBlind_seating.picker scopePath boardId)
  | selectBoard boardId => exact hkeeps (keeps_selectBoard siteBlind_seating.picker boardId)
  | createBoard projectId name =>
      exact respects_dropping (respects_createBoard siteBlind_seating sameSeating
        staysSeated_seedTodoTx projectId name) db
  | renameBoard id name => exact hkeeps (keeps_renameBoard siteBlind_seating id name)
  | setBoardArchived boardId archived =>
      exact hkeeps (keeps_setBoardArchived siteBlind_seating conn boardId archived)
  | setProjectArchived scopePath archived =>
      exact hkeeps (keeps_setProjectArchived siteBlind_seating conn scopePath archived)

/-! ## Calls that would cross a boundary -/

/-- The call names a column that is not on the board in question. -/
def Crosses (db : Db) : Operation → Prop
  | .createCard p | .createCardAndEnqueue p _ =>
      ∃ k, p.columnId = some k ∧ ¬OnBoard db (p.boardId.getD BOARD_ID) k
  | .moveCard id column _ | .moveCardAndEnqueue id column _ _ =>
      ∃ card, db.card? id = some card ∧ ¬OnBoard db card.boardId column
  | .transferCard _ board column _ | .transferCardAndEnqueue _ board column _ _ =>
      ¬OnBoard db board column
  | .enqueueRun p => ∃ card, db.card? p.cardId = some card ∧ ¬OnBoard db card.boardId p.columnId
  | .finalizeRun p => ∃ run, db.run? p.runId = some run ∧
      ((∃ k, p.targetColumnId = some k ∧ db.boardMatches k run.cardId = false) ∨
        ∃ next, p.next = some next ∧ db.boardMatches next.columnId run.cardId = false)
  | .createColumn p => ∃ k, (p.onSuccessColumnId = some k ∨ p.onFailColumnId = some k) ∧
      ¬OnBoard db (p.boardId.getD BOARD_ID) k
  | .updateColumn p => ∃ old k, db.column? p.id = some old ∧ leadsTo (patchColumn p old) k ∧
      ¬OnBoard db old.boardId k
  | .deleteColumn id dst =>
      ∃ old k, db.column? id = some old ∧ dst = some k ∧ ¬OnBoard db old.boardId k
  | .applyTemplateColumns board _ wiring =>
      ∃ wire ∈ wiring, ∃ k c,
        (wire.onSuccess = some (.existing k) ∨ wire.onFail = some (.existing k)) ∧
      db.column? k = some c ∧ c.boardId ≠ board
  | _ => False

/-- What cannot succeed leaves the store as it was. -/
theorem refused_of {α : Type} {x : StoreM α} (hx : Atomic x)
    (hno : ∀ a db', x db = .ok a db' → False) : ∃ e, x db = .error e db := by
  cases hrun : x db with
  | ok a db' => exact (hno a db' hrun).elim
  | error e db' => exact ⟨e, (hx db e db' hrun) ▸ rfl⟩

theorem refused_dropping {α : Type} {x : StoreM α} (h : ∃ e, x db = .error e db) :
    ∃ e, dropping x db = .error e db := by
  obtain ⟨e, hrun⟩ := h
  refine ⟨e, ?_⟩
  unfold dropping
  rw [run_bind, hrun]

variable {id column board : Int}

theorem moveCard_onBoard {card moved : Card} {position : Option Int}
    (hcard : db.card? id = some card) (hrun : moveCard conn id column position db = .ok moved db') :
    OnBoard db card.boardId column := by
  simp only [moveCard, bind_ok, requireCard_ok, requireColumn_ok, refuse_ok, not_not] at hrun
  obtain ⟨old, _, ⟨hold, rfl⟩, target, _, ⟨htarget, rfl⟩, _, _, ⟨hboard, -⟩, -⟩ := hrun
  cases hold.symm.trans hcard
  exact onBoard_iff.mpr ⟨target, htarget, hboard⟩

theorem moveCardAndEnqueueUow_onBoard {card : Card} {moved : Card × Run} {position : Option Int}
    {run : EnqueueRun} (hcard : db.card? id = some card)
    (hrun : moveCardAndEnqueueUow conn id column position run db = .ok moved db') :
    OnBoard db card.boardId column := by
  simp only [moveCardAndEnqueueUow, bind_ok, requireCard_ok, requireColumn_ok, refuse_ok, not_not]
    at hrun
  obtain ⟨old, _, ⟨hold, rfl⟩, target, _, ⟨htarget, rfl⟩, _, _, ⟨hboard, -⟩, -⟩ := hrun
  cases hold.symm.trans hcard
  exact onBoard_iff.mpr ⟨target, htarget, hboard⟩

theorem transferCard_onBoard {moved : Card} {position : Option Int}
    (hrun : transferCard conn id board column position db = .ok moved db') :
    OnBoard db board column := by
  simp only [transferCard, bind_ok, transaction_ok, requireCard_ok, getBoard_ok, requireColumn_ok,
    refuse_ok, not_not] at hrun
  obtain ⟨_, _, ⟨_, _, ⟨-, rfl⟩, _, _, ⟨-, rfl⟩, target, _, ⟨htarget, rfl⟩, _, _, ⟨hboard, -⟩, -⟩,
    -⟩ := hrun
  exact onBoard_iff.mpr ⟨target, htarget, hboard⟩

theorem transferCardAndEnqueueUow_onBoard {moved : Card × Run} {position : Option Int}
    {run : EnqueueRun}
    (hrun : transferCardAndEnqueueUow conn id board column position run db = .ok moved db') :
    OnBoard db board column := by
  simp only [transferCardAndEnqueueUow, bind_ok, requireCard_ok, getBoard_ok, requireColumn_ok,
    refuse_ok, not_not] at hrun
  obtain ⟨_, _, ⟨-, rfl⟩, _, _, ⟨-, rfl⟩, target, _, ⟨htarget, rfl⟩, _, _, ⟨hboard, -⟩, -⟩ := hrun
  exact onBoard_iff.mpr ⟨target, htarget, hboard⟩

theorem createCard_onBoard {p : CardCreateParams} {card : Card} (hcolumn : p.columnId = some column)
    (hrun : createCard conn p db = .ok card db') : OnBoard db (p.boardId.getD BOARD_ID) column := by
  simp only [createCard_eq, inserting, bind_ok, getBoard_ok, chooseColumn_ok, requireColumn_ok,
    refuse_ok, not_not] at hrun
  obtain ⟨_, _, ⟨-, rfl⟩, chosen, _, ⟨hchosen, rfl⟩, target, _, ⟨htarget, rfl⟩, _, _, ⟨hboard, -⟩,
    -⟩ := hrun
  rw [Db.newCardColumn, hcolumn] at hchosen
  cases hchosen
  exact onBoard_iff.mpr ⟨target, htarget, hboard⟩

theorem createCardAndEnqueueUow_onBoard {p : CardCreateParams} {run : EnqueueRun}
    {created : Card × Run} (hcolumn : p.columnId = some column)
    (hrun : createCardAndEnqueueUow conn p run db = .ok created db') :
    OnBoard db (p.boardId.getD BOARD_ID) column := by
  simp only [createCardAndEnqueueUow, bind_ok, getBoard_ok, defaultColumnId_ok, requireColumn_ok,
    refuse_ok, not_not] at hrun
  obtain ⟨_, _, ⟨-, rfl⟩, default, _, ⟨-, rfl⟩, target, _, ⟨htarget, rfl⟩, _, _, ⟨hboard, -⟩, -⟩ :=
    hrun
  rw [hcolumn] at htarget
  exact onBoard_iff.mpr ⟨target, htarget, hboard⟩

theorem enqueueRunUow_onBoard {p : EnqueueRun} {card : Card} {run : Run}
    (hcard : db.card? p.cardId = some card)
    (hrun : enqueueRunUow conn p db = .ok run db') : OnBoard db card.boardId p.columnId := by
  simp only [enqueueRunUow, bind_ok, requireCard_ok, requireColumn_ok, refuse_ok, not_not] at hrun
  obtain ⟨old, _, ⟨hold, rfl⟩, target, _, ⟨htarget, rfl⟩, _, _, ⟨hboard, -⟩, -⟩ := hrun
  cases hold.symm.trans hcard
  exact onBoard_iff.mpr ⟨target, htarget, hboard.symm⟩

/-- A finalization goes through only if target and next column are on the card's board, as
it was before. -/
theorem finalizeRunUow_onBoard {p : FinalizeRun} {run : Run} {effects : FinalizeEffects}
    (hfind : db.run? p.runId = some run) (hrun : finalizeRunUow conn p db = .ok effects db') :
    (∀ k, p.targetColumnId = some k → db.boardMatches k run.cardId = true) ∧
      ∀ next, p.next = some next → db.boardMatches next.columnId run.cardId = true := by
  simp only [finalizeRunUow, finalizeRunTx, bind_ok, transaction_ok, get_ok, okOr_ok] at hrun
  obtain ⟨_, _, ⟨_, _, ⟨rfl, rfl⟩, found, _, ⟨hfound, rfl⟩, _, _, hcheck, _, ended, hended, _, _,
    hfault, _, told, htold, _, moved, hmoved, -⟩, -⟩ := hrun
  cases (Option.filter_eq_some_iff.mp hfound).1.symm.trans hfind
  cases (readOnly_checkNext _ _).ok hcheck
  cases lifecycleFault_ok hfault
  refine ⟨fun k hk => ?_, fun next hnext => ?_⟩
  · rw [hk] at hmoved
    simp only [applyTransition, bind_ok, get_ok, refuse_ok, Bool.not_eq_false] at hmoved
    obtain ⟨_, _, ⟨rfl, rfl⟩, _, _, ⟨hmatches, -⟩, -⟩ := hmoved
    have hended := updateRuns_ok.mp hended
    have hgrounds := (keeps_insertComments commentBlind_grounds _ _ _).ok htold
    rw [boardMatches_congr hgrounds] at hmatches
    have hsame : ended.boardMatches k run.cardId = db.boardMatches k run.cardId :=
      boardMatches_of_same (by rw [hended])
        (fun id => by rw [Db.card?, Db.card?, hended]) k run.cardId
    exact hsame.symm.trans hmatches
  · rw [hnext] at hcheck
    simp only [checkNext, bind_ok, refuse_ok, get_ok, Bool.not_eq_false] at hcheck
    obtain ⟨_, _, ⟨-, rfl⟩, _, _, ⟨rfl, rfl⟩, hmatches, -⟩ := hcheck
    exact hmatches

theorem createColumn_onBoard {p : ColumnCreateParams} {created : Column}
    (hrun : createColumn p db = .ok created db') {k : Int}
    (hk : p.onSuccessColumnId = some k ∨ p.onFailColumnId = some k) :
    OnBoard db (p.boardId.getD BOARD_ID) k := by
  simp only [createColumn, bind_ok, getBoard_ok, validateColumnTargets_ok] at hrun
  obtain ⟨_, _, ⟨-, rfl⟩, _, _, ⟨hsuccess, hfail, -⟩, -⟩ := hrun
  exact onBoard_iff.mpr (hk.elim (hsuccess k) (hfail k))

theorem updateColumn_onBoard {p : ColumnUpdateParams} {old updated : Column}
    (hold : db.column? p.id = some old)
    (hrun : updateColumn p db = .ok updated db') {k : Int} (hk : leadsTo (patchColumn p old) k) :
    OnBoard db old.boardId k := by
  simp only [updateColumn, bind_ok, requireColumn_ok, validateColumnTargets_ok] at hrun
  obtain ⟨found, _, ⟨hfound, rfl⟩, _, _, ⟨hsuccess, hfail, -⟩, -⟩ := hrun
  cases hfound.symm.trans hold
  exact onBoard_iff.mpr (hk.elim (hsuccess k) (hfail k))

theorem deleteColumn_onBoard {old : Column} {k : Int} {u : Unit} (hold : db.column? id = some old)
    (hrun : deleteColumn conn id (some k) db = .ok u db') : OnBoard db old.boardId k := by
  simp only [deleteColumn_eq, bind_ok, requireColumn_ok, checkDestination_ok] at hrun
  obtain ⟨found, _, ⟨hfound, rfl⟩, _, _, ⟨hdst, -⟩, -⟩ := hrun
  cases hfound.symm.trans hold
  exact onBoard_iff.mpr (hdst k rfl)

/-! ## Templates -/

/-- A column on another board stays there while template columns come in and are wired. -/
theorem wireColumns_onBoard {ids : List Int} {wiring : List ColumnWiring} {u : Unit}
    (hrun : wireColumns board ids wiring db = .ok u db')
    {wire : ColumnWiring} (hwire : wire ∈ wiring) {k other : Int}
    (hk : wire.onSuccess = some (.existing k) ∨ wire.onFail = some (.existing k))
    (hother : OnBoard db other k) : other = board := by
  induction wiring generalizing db with
  | nil => cases hwire
  | cons first wiring ih =>
      obtain ⟨source, _, hsource, hrun⟩ := bind_ok.mp hrun
      cases (readOnly_okOr _ _).ok hsource
      obtain ⟨onSuccess, _, hsuccess, hrun⟩ := bind_ok.mp hrun
      cases (readOnly_resolveTarget board ids _).ok hsuccess
      obtain ⟨onFail, _, hfail, hrun⟩ := bind_ok.mp hrun
      cases (readOnly_resolveTarget board ids _).ok hfail
      obtain ⟨_, wired, hwired, hrest⟩ := bind_ok.mp hrun
      have hresolve {target : Option ColumnTarget} {resolved : Option Int}
          (htarget : target = some (.existing k))
          (h : Core.resolveTarget board ids target db = .ok resolved db) : other = board := by
        rw [htarget] at h
        simp only [Core.resolveTarget, bind_ok, requireColumn_ok, refuse_ok, not_not] at h
        obtain ⟨c, _, ⟨hc, -⟩, _, _, ⟨hboard, -⟩, -⟩ := h
        obtain ⟨c', hc', rfl⟩ := onBoard_iff.mp hother
        cases hc'.symm.trans hc
        exact hboard
      rcases List.mem_cons.mp hwire with rfl | hwire
      · exact hk.elim (fun hk => hresolve hk hsuccess) fun hk => hresolve hk hfail
      · exact ih hrest hwire (hother.updateColumns hwired fun _ => rfl)

theorem insertTemplateColumns_onBoard {specs : List ColumnCreateParams} {ids : List Int}
    {k other : Int}
    (hrun : insertTemplateColumns board specs db = .ok ids db') (hother : OnBoard db other k) :
    OnBoard db' other k := by
  induction specs generalizing db ids with
  | nil =>
      obtain ⟨-, rfl⟩ := pure_ok.mp hrun
      exact hother
  | cons spec specs ih =>
      simp only [insertTemplateColumns, bind_ok, get_ok, rejectDuplicate_ok, pure_ok] at hrun
      obtain ⟨_, _, ⟨rfl, rfl⟩, newId, inserted, hinserted, rest, _, hrest, -, rfl⟩ := hrun
      exact ih hrest (hother.insertColumn hinserted)

theorem applyTemplateColumnsUow_onBoard {specs : List ColumnCreateParams}
    {wiring : List ColumnWiring} {columns : List Column}
    (hrun : applyTemplateColumnsUow board specs wiring db = .ok columns db') {wire : ColumnWiring}
    (hwire : wire ∈ wiring) {k other : Int}
    (hk : wire.onSuccess = some (.existing k) ∨ wire.onFail = some (.existing k))
    (hother : OnBoard db other k) : other = board := by
  simp only [applyTemplateColumnsUow, bind_ok, getBoard_ok, transaction_ok] at hrun
  obtain ⟨_, _, ⟨-, rfl⟩, _, _, hcheck, _, _, ⟨ids, inserted, hinserted, hwired⟩, -⟩ := hrun
  cases (readOnly_checkTemplateSpecs _ _).ok hcheck
  exact wireColumns_onBoard hwired hwire hk (insertTemplateColumns_onBoard hinserted hother)

/-- A call that would cross a boundary is refused, and leaves the store as it was. -/
theorem crosses_refused {op : Operation} (h : Crosses db op) :
    ∃ e, op.run conn db = .error e db := by
  cases op with
  | createCard p =>
      obtain ⟨k, hk, hoff⟩ := h
      exact refused_dropping
        (refused_of (createCard_atomic p) fun _ _ hrun => hoff (createCard_onBoard hk hrun))
  | createCardAndEnqueue p run =>
      obtain ⟨k, hk, hoff⟩ := h
      exact refused_dropping (refused_of (createCardAndEnqueueUow_atomic p run) fun _ _ hrun =>
        hoff (createCardAndEnqueueUow_onBoard hk hrun))
  | moveCard id column position =>
      obtain ⟨card, hcard, hoff⟩ := h
      exact refused_dropping (refused_of (moveCard_atomic id column position) fun _ _ hrun =>
        hoff (moveCard_onBoard hcard hrun))
  | moveCardAndEnqueue id column position run =>
      obtain ⟨card, hcard, hoff⟩ := h
      exact refused_dropping (refused_of (moveCardAndEnqueueUow_atomic id column position run)
        fun _ _ hrun => hoff (moveCardAndEnqueueUow_onBoard hcard hrun))
  | transferCard id board column position =>
      exact refused_dropping (refused_of (transferCard_atomic id board column position)
        fun _ _ hrun => h (transferCard_onBoard hrun))
  | transferCardAndEnqueue id board column position run =>
      exact refused_dropping
        (refused_of (transferCardAndEnqueueUow_atomic id board column position run)
        fun _ _ hrun => h (transferCardAndEnqueueUow_onBoard hrun))
  | enqueueRun p =>
      obtain ⟨card, hcard, hoff⟩ := h
      exact refused_dropping (refused_of (enqueueRunUow_atomic p) fun _ _ hrun =>
        hoff (enqueueRunUow_onBoard hcard hrun))
  | finalizeRun p =>
      obtain ⟨run, hfind, hoff⟩ := h
      refine refused_dropping (refused_of (finalizeRunUow_atomic p) fun _ _ hrun => ?_)
      obtain ⟨htarget, hnext⟩ := finalizeRunUow_onBoard hfind hrun
      rcases hoff with ⟨k, hk, hoff⟩ | ⟨next, hp, hoff⟩
      · exact Bool.false_ne_true (hoff.symm.trans (htarget k hk))
      · exact Bool.false_ne_true (hoff.symm.trans (hnext next hp))
  | createColumn p =>
      obtain ⟨k, hk, hoff⟩ := h
      exact refused_dropping
        (refused_of (createColumn_atomic p) fun _ _ hrun => hoff (createColumn_onBoard hrun hk))
  | updateColumn p =>
      obtain ⟨old, k, hold, hk, hoff⟩ := h
      exact refused_dropping (refused_of (updateColumn_atomic p) fun _ _ hrun =>
        hoff (updateColumn_onBoard hold hrun hk))
  | deleteColumn id dst =>
      obtain ⟨old, k, hold, rfl, hoff⟩ := h
      exact refused_of (deleteColumn_atomic id (some k)) fun _ _ hrun =>
        hoff (deleteColumn_onBoard hold hrun)
  | applyTemplateColumns board specs wiring =>
      obtain ⟨wire, hwire, k, c, hk, hc, hoff⟩ := h
      exact refused_dropping (refused_of (applyTemplateColumnsUow_atomic board specs wiring)
        fun _ _ hrun => hoff
          (applyTemplateColumnsUow_onBoard hrun hwire hk (onBoard_iff.mpr ⟨c, hc, rfl⟩)))
  | _ => exact h.elim

/-! ## Histories -/

theorem bounded_of_reachable (h : history.Reachable db) : Tables.Bounded db.toTables := by
  refine history_invariant (I := fun db => Tables.Bounded db.toTables)
    ⟨fun c hc => absurd hc List.not_mem_nil, fun l hl m _ hk => ?_⟩
    (fun db conn op hdb _ => staysBounded_run conn op db hdb) h
  obtain rfl := List.mem_singleton.mp hl
  exact nomatch hk

theorem seated_of_reachable (h : history.ReachableBy transfersAtRest db) :
    Tables.Seated db.toTables :=
  history_invariant (I := fun db => Tables.Seated db.toTables)
    (fun _ hr => absurd hr List.not_mem_nil)
    (fun _ _ op hdb hrest => staysSeated_run op hrest hdb) h

/-- The store transfers a card whose run is open, and leaves the run behind on the former board. -/
theorem transferCard_unseats {card moved : Card} {position : Option Int} {run : Run}
    {former : Column} (htransfer : transferCard conn id board column position db = .ok moved db')
    (hcard : db.card? id = some card) (hleaves : card.boardId ≠ board) (hrun : run ∈ db.runs)
    (hformer : db.column? run.columnId = some former) (hboard : former.boardId = card.boardId) :
    run ∈ db'.runs ∧ moved.boardId = board ∧ db'.card? id = some moved ∧
      ∃ column, db'.column? run.columnId = some column ∧ column.boardId ≠ moved.boardId := by
  simp only [transferCard, bind_ok, transaction_ok, requireCard_ok, getBoard_ok, requireColumn_ok,
    refuse_ok, not_not] at htransfer
  obtain ⟨_, closed, ⟨old, _, ⟨hold, rfl⟩, _, _, ⟨-, rfl⟩, target, _, ⟨-, rfl⟩, _, _, ⟨-, rfl⟩, _,
    updated, hupdated, _, placed, hplaced, hclosed⟩, hmoved, hend⟩ := htransfer
  subst hend
  cases hold.symm.trans hcard
  have htables := (updateCards_ok.mp hupdated).1
  have hblind : PositionBlind fun t : Tables => (t.columns, t.runs) := fun _ _ _ => rfl
  have hkept : (closed.columns, closed.runs) = (updated.columns, updated.runs) :=
    ((keeps_positions_renumberColumnCardsTx hblind _).ok hclosed).trans
      ((readOnly_get.respects.bind fun _ => keeps_positions hblind _).ok hplaced)
  have hcolumns : closed.columns = db.columns := (congrArg Prod.fst hkept).trans (by rw [htables])
  have hruns : closed.runs = db.runs := (congrArg Prod.snd hkept).trans (by rw [htables])
  have hthere : moved.boardId = board := by
    have hland := land_of_seating ((keeps_seating_renumberColumnCardsTx.ok hclosed).trans
      ((keeps_seating_placeCardInColumnTx _).ok hplaced))
    have hboards := congrFun (congrArg Prod.fst hland) id
    have hupdatedCard : updated.cards.find? id =
        some { card with boardId := board, columnId := column, updatedAt := conn.now } := by
      have hid : card.id = id := Table.key_of_find? hcard
      rw [htables, Table.find?_update, show db.cards.find? id = some card from hcard,
        Option.map_some, if_pos (by simp [hid])]
    have hmovedBoard : (closed.cards.find? id).map Card.boardId = some moved.boardId :=
      congrArg (Option.map Card.boardId) hmoved
    have hupdatedBoard :=
      hmovedBoard.symm.trans (hboards.trans (congrArg (Option.map Card.boardId) hupdatedCard))
    exact Option.some.inj hupdatedBoard
  refine ⟨hruns ▸ hrun, hthere, hmoved, former, ?_, ?_⟩
  · rw [Db.column?, hcolumns]
    exact hformer
  · rw [hthere, hboard]
    exact hleaves

/-- Throughout every history each card stands on its own board and each column leads to columns of
its board, and while cards are transferred only at rest each open run stands on the board of its
card; a call that would cross a boundary is refused, but a transfer leaves an open run behind. -/
theorem boards_stay_apart (h : history.Reachable db) :
    (∀ card ∈ db.cards, ∃ column, db.column? card.columnId = some column ∧
      column.boardId = card.boardId) ∧
    (∀ column ∈ db.columns, ∀ k, leadsTo column k → ∃ target, db.column? k = some target ∧
      target.boardId = column.boardId) ∧
    (history.ReachableBy transfersAtRest db → ∀ run ∈ db.runs, run.isOpen = true →
      ∃ card column, db.card? run.cardId = some card ∧ db.column? run.columnId = some column ∧
        column.boardId = card.boardId) ∧
    (∀ conn op, Crosses db op → ∃ e, op.run conn db = .error e db) ∧
    ∀ conn id board column position card moved db' run former,
      transferCard conn id board column position db = .ok moved db' →
      db.card? id = some card → card.boardId ≠ board → run ∈ db.runs →
      db.column? run.columnId = some former →
      former.boardId = card.boardId → run ∈ db'.runs ∧ moved.boardId = board ∧
      db'.card? id = some moved ∧
        ∃ column, db'.column? run.columnId = some column ∧ column.boardId ≠ moved.boardId := by
  have hbounded := bounded_of_reachable h
  refine ⟨fun card hcard => hbounded.cards.find? (present_cards db) hcard rfl,
    fun column hcolumn k hk => hbounded.columns.find? (present_columns db) hcolumn hk,
      fun hrest run hrun hopen => ?_,
    fun conn op => crosses_refused, fun _ _ _ _ _ _ _ _ _ _ => transferCard_unseats⟩
  obtain ⟨card, hcard, hcardId⟩ := db.run_card hrun
  obtain ⟨column, hcolumn, hcolumnId⟩ := db.run_column hrun
  have hfind : db.cards.find? run.cardId = some card := Table.find?_eq_some.mpr ⟨hcard, hcardId⟩
  have hboard := (congrArg (Option.map Card.boardId) hfind).symm.trans
    (seated_of_reachable hrest run hrun hopen column hcolumn hcolumnId)
  exact ⟨card, column, hfind, Table.find?_eq_some.mpr ⟨hcolumn, hcolumnId⟩,
    (Option.some.inj hboard).symm⟩

/-- A card with a queued run, and a second board. -/
def staffed : Db := afterCalls
  [(permissiveEnv.conn, .createCard { title := "First" }),
    (permissiveEnv.conn, .enqueueRun (runIn "a")),
    (permissiveEnv.conn, .createBoard 1 "Second")]

theorem boards_stay_apart_staffed : (∃ run ∈ staffed.runs, run.isOpen = true ∧ ∃ card column,
      staffed.card? run.cardId = some card ∧ staffed.column? run.columnId = some column ∧
      column.boardId = card.boardId) ∧
    (∃ e, (Operation.moveCard 1 2 none).run permissiveEnv.conn staffed = .error e staffed) ∧
    ∃ moved db', transferCard permissiveEnv.conn 1 2 2 none staffed = .ok moved db' ∧
      ∃ run ∈ db'.runs, ∃ column,
      db'.column? run.columnId = some column ∧ column.boardId ≠ moved.boardId := by
  have hreachable : history.ReachableBy transfersAtRest staffed := by
    refine reachableBy_afterCalls _ fun db call hcall id board column position htransfer => ?_
    simp only [List.mem_cons, List.not_mem_nil, or_false] at hcall
    rcases hcall with rfl | rfl | rfl <;> cases htransfer
  have hplain : history.Reachable staffed := reachable_afterCalls _
  obtain ⟨-, -, hseated, hrefused, hunseats⟩ := boards_stay_apart hplain
  have hrun : ∃ run ∈ staffed.runs, run.isOpen = true ∧ run.columnId = 1 := by
    have hopen : ((staffed.runs.find? 1).filter fun run => run.isOpen && run.columnId ==
        1).isSome := by decide +kernel
    obtain ⟨run, hfound⟩ := Option.isSome_iff_exists.mp hopen
    obtain ⟨hfind, hboth⟩ := Option.filter_eq_some_iff.mp hfound
    simp only [Bool.and_eq_true, beq_iff_eq] at hboth
    exact ⟨run, Table.mem_of_find? hfind, hboth⟩
  obtain ⟨run, hrun, hopen, hcolumnId⟩ := hrun
  refine ⟨⟨run, hrun, hopen, hseated hreachable run hrun hopen⟩, hrefused _ _ ?_, ?_⟩
  · have hcard : (staffed.card? 1).map Card.boardId = some 1 := by decide +kernel
    have hcolumn : (staffed.column? 2).map Column.boardId = some 2 := by decide +kernel
    obtain ⟨card, hfind, hboard⟩ := Option.map_eq_some_iff.mp hcard
    refine ⟨card, hfind, fun hon => ?_⟩
    obtain ⟨column, hfound, hsame⟩ := onBoard_iff.mp hon
    rw [hfound, Option.map_some, hsame, hboard] at hcolumn
    exact absurd hcolumn (by decide)
  · have hok : succeeded (transferCard permissiveEnv.conn 1 2 2 none staffed) = true := by
      decide +kernel
    have hcard : (staffed.card? 1).map Card.boardId = some 1 := by decide +kernel
    have hformer : (staffed.column? 1).map Column.boardId = some 1 := by decide +kernel
    obtain ⟨moved, db', htransfer⟩ := ok_of_succeeded hok
    obtain ⟨card, hfind, hboard⟩ := Option.map_eq_some_iff.mp hcard
    obtain ⟨former, hfound, hformer⟩ := Option.map_eq_some_iff.mp hformer
    obtain ⟨hstays, -, -, column, hcolumn, hne⟩ :=
      hunseats _ _ _ _ _ card moved db' run former htransfer hfind
      (by rw [hboard]; decide) hrun (hcolumnId ▸ hfound) (hformer.trans hboard.symm)
    exact ⟨moved, db', htransfer, run, hstays, column, hcolumn, hne⟩

end HerdrBoard.Editing
