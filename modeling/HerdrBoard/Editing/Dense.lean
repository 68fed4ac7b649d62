import HerdrBoard.Comments.History
import HerdrBoard.Editing.Ordering

/-!
# Dense positions

In every history of the store the positions of the cards of a column, and of the columns of a board,
are `0, 1, …`, and a call moves only the card or the column it is about. -/

open Lib HerdrBoard.Core HerdrBoard.Daemon HerdrBoard.Lifecycle

namespace HerdrBoard.Editing

variable {conn : Conn} {db db' : Db} {o : Orders} {id : Int}

/-- Whether a call makes a board, or may make the project it is asked to open. -/
def makesBoard : Operation → Bool
  | .openBoard _ | .openProjectContext _ | .createProjectContext _ | .createBoard .. => true
  | _ => false

/-- The orders a call leaves that succeeds. -/
def ordersAfter (db : Db) (o : Orders) : Operation → Orders
  | .createCard p | .createCardAndEnqueue p _ =>
      match db.newCardColumn p with
      | some column => o.putCard db.cards.nextKey column p.position
      | none => o
  | .duplicateCard id =>
      match db.card? id with
      | some card =>
          o.putCard db.cards.nextKey card.columnId (some ((o.cards card.columnId).idxOf id + 1))
      | none => o
  | .moveCard id column position | .moveCardAndEnqueue id column position _
  | .transferCard id _ column position
  | .transferCardAndEnqueue id _ column position _ => o.putCard id column position
  | .deleteCard id => o.removeCard id
  | .finalizeRun p =>
      match db.run? p.runId with
      | some run => o.transition run.cardId p.targetColumnId
      | none => o
  | .createColumn p => o.putColumn db.columns.nextKey (p.boardId.getD BOARD_ID) p.position
  | .updateColumn p =>
      match db.column? p.id with
      | some column => o.reposition p.id column.boardId p.position
      | none => o
  | .reorderColumn id position =>
      match db.column? id with
      | some column => o.putColumn id column.boardId (some position)
      | none => o
  | .deleteColumn id dst => o.dropColumn id dst
  | .applyTemplateColumns board specs _ => o.appendColumns board (nextColumns db specs.length)
  | .openBoard scopePath | .openProjectContext scopePath =>
      if (db.projectByScope scopePath).isSome then o else o.seed db
  | .createProjectContext _ | .createBoard .. => o.seed db
  | _ => o

/-! ## Calls that place nothing -/

theorem siteBlind_places : SiteBlind Tables.places := ⟨fun _ _ _ => rfl, fun _ _ _ _ _ => rfl⟩

/-! ## Calls that leave nothing behind when they fail -/

theorem rejectDuplicate_atomic {α : Type} {duplicate : String} {x : StoreM α} (h : Atomic x) :
    Atomic (rejectDuplicate duplicate x) := by
  intro db e db' hrun
  unfold rejectDuplicate at hrun
  split at hrun
  · next hx =>
      cases hrun
      exact h db _ _ hx
  · exact h db e db' hrun

/-- A column that is there can be reordered, and is still there. -/
theorem succeeds_reorderColumn {column : Column} {position : Int}
    (h : db.column? id = some column) :
    Succeeds (reorderColumn id position) db fun _ db' =>
      ∃ found, requireColumn id db' = .ok found db' := by
  obtain ⟨_, placed, hplaced⟩ :=
    setColumnPositions_total (placing db.columns column.boardId id (some position)) db
  have hrun : reorderColumn id position db = .ok (placed.listColumns column.boardId) placed := by
    simp only [reorderColumn, bind_ok, requireColumn_ok, transaction_ok, get_ok, pure_ok]
    exact ⟨column, db, ⟨h, rfl⟩, (), placed, ⟨db, db, ⟨rfl, rfl⟩, hplaced⟩, placed, placed,
      ⟨rfl, rfl⟩, rfl, rfl⟩
  have hthere := reorderColumn_unplaced hrun id
  rw [h, Option.map_some] at hthere
  obtain ⟨found, hfound, -⟩ := Option.map_eq_some_iff.mp hthere
  exact ⟨_, placed, hrun, found, requireColumn_run hfound⟩

theorem reorderColumn_atomic (id position : Int) : Atomic (reorderColumn id position) :=
  (readOnly_requireColumn id).bind_atomic fun _ =>
    (atomic_transaction _).bind_succeeds fun _ _ db' _ => ⟨_, db', rfl⟩

theorem createColumn_atomic (p : ColumnCreateParams) : Atomic (createColumn p) := by
  refine (readOnly_getBoard _).bind_atomic fun _ =>
    (readOnly_validateColumnTargets _ _ _).bind_atomic fun _ => ?_
  refine readOnly_get.bind_atomic fun db => ?_
  have hinsert : Atomic
      (insertColumn (newColumn p (p.boardId.getD BOARD_ID)
      (db.columns.endPosition (p.boardId.getD BOARD_ID)) p.onSuccessColumnId p.onFailColumnId)) :=
    readOnly_get.bind_atomic fun _ => (exec_atomic _).bind_succeeds fun _ _ db' _ => ⟨_, db', rfl⟩
  refine (rejectDuplicate_atomic hinsert).bind_succeeds fun start id inserted h => ?_
  obtain ⟨htables, rfl⟩ := insertColumn_ok.mp (rejectDuplicate_ok.mp h)
  have hcolumn : ∃ column, inserted.column? start.columns.nextKey = some column := by
    refine Option.isSome_iff_exists.mp ?_
    rw [Db.column?, htables]
    simp [Table.find?_insert]
  obtain ⟨column, hcolumn⟩ := hcolumn
  cases p.position with
  | none => exact ⟨column, inserted, requireColumn_run hcolumn⟩
  | some position =>
      obtain ⟨_, placed, hplaced, found, hfound⟩ :=
        @succeeds_reorderColumn inserted _ column position hcolumn
      exact ⟨found, placed, bind_ok.mpr ⟨_, placed, hplaced, hfound⟩⟩

theorem updateColumn_atomic (p : ColumnUpdateParams) : Atomic (updateColumn p) := by
  intro db
  refine (readOnly_requireColumn _).bind_atomicAt fun old hold => ?_
  refine (readOnly_validateColumnTargets _ _ _).bind_atomicAt fun _ _ => ?_
  refine ((rejectDuplicate_atomic (exec_atomic _)).atomicAt db).bind_succeeds fun _ updated h => ?_
  have hold := (requireColumn_ok.mp hold).1
  have hid : (patchColumn p old).id = p.id := Table.key_of_find? hold
  have hcolumn : ∃ column, updated.column? (patchColumn p old).id = some column := by
    have hsome : ((db.columns.find? p.id).map fun r =>
        if r.id == (patchColumn p old).id then Column.withSettingsOf (patchColumn p old) r
          else r).isSome := by
      rw [show db.columns.find? p.id = some old from hold]
      rfl
    rw [Db.column?, updateColumns_ok.mp (rejectDuplicate_ok.mp h), Table.find?_update, hid]
    rw [hid] at hsome
    exact Option.isSome_iff_exists.mp hsome
  obtain ⟨column, hcolumn⟩ := hcolumn
  cases p.position with
  | none => exact ⟨column, updated, requireColumn_run hcolumn⟩
  | some position =>
      obtain ⟨_, placed, hplaced, found, hfound⟩ :=
        @succeeds_reorderColumn updated _ column position hcolumn
      exact ⟨found, placed, bind_ok.mpr ⟨_, placed, hplaced, hfound⟩⟩

theorem deleteColumn_atomic (id : Int) (dst : Option Int) : Atomic (deleteColumn conn id dst) :=
  (readOnly_requireColumn id).bind_atomic fun _ =>
    (readOnly_checkDestination _ _).bind_atomic fun _ => atomic_transaction _

theorem applyTemplateColumnsUow_atomic (board : Int) (specs : List ColumnCreateParams)
    (wiring : List ColumnWiring) : Atomic (applyTemplateColumnsUow board specs wiring) :=
  (readOnly_getBoard board).bind_atomic fun _ =>
    (readOnly_checkTemplateSpecs board specs).bind_atomic fun _ =>
    (atomic_transaction _).bind_succeeds fun _ _ db' _ => ⟨_, db', rfl⟩

/-- The copy is read back. -/
theorem duplicateCard_atomic (id : Int) : Atomic (duplicateCard conn id) := by
  refine (readOnly_requireCard id).bind_atomic fun card =>
    (atomic_transaction _).bind_succeeds fun db copyId db' h => ?_
  simp only [transaction_ok, bind_ok, get_ok, pure_ok] at h
  obtain ⟨_, _, ⟨rfl, rfl⟩, copyId, inserted, hinserted, _, placed, hplaced, rfl, rfl⟩ := h
  have hkept : placed.hasCard copyId = inserted.hasCard copyId :=
    (keeps_hasCard_place copyId _ _).ok hplaced
  have hthere : inserted.hasCard copyId = true := by
    obtain ⟨htables, rfl⟩ := insertCard_ok.mp hinserted
    rw [Tables.hasCard, htables]
    simp [Table.find?_insert]
  obtain ⟨copy, hcopy⟩ := requireCard_of_hasCard (hkept.trans hthere)
  exact ⟨copy, placed, hcopy⟩

/-! ## Every call -/

/-- What a call does to the orders: its effect when it succeeds, nothing when it fails. -/
structure Rearranges {α : Type} (x : StoreM α) (db : Db) (o o' : Orders) : Prop where
  ok : ∀ {a db'}, x db = .ok a db' → Ordered o' db'
  error : ∀ {e db'}, x db = .error e db' → Ordered o db'

variable {α : Type} {x : StoreM α} {o' : Orders}

theorem Rearranges.of_keeps (h : Ordered o db) (hx : KeepsTables Tables.places x) :
    Rearranges x db o o where
  ok hrun := h.keeps hx hrun
  error {e db'} hrun := by
    have hplaces := hx db
    rw [hrun] at hplaces
    exact h.of_places hplaces

theorem Rearranges.of_atomic (h : Ordered o db) (hx : Atomic x)
    (hok : ∀ a db', x db = .ok a db' → Ordered o' db') : Rearranges x db o o' where
  ok hrun := hok _ _ hrun
  error hrun := (hx _ _ _ hrun).symm ▸ h

theorem Rearranges.dropping (h : Rearranges x db o o') : Rearranges (dropping x) db o o' where
  ok hrun := by
    obtain ⟨a, hrun⟩ := dropping_ok.mp hrun
    exact h.ok hrun
  error {e db'} hrun := by
    have hfinal := finalState_dropping (x := x) db
    rw [hrun] at hfinal
    cases hx : x db with
    | ok a t =>
        rw [(dropping_ok (u := ())).mpr ⟨a, hx⟩] at hrun
        cases hrun
    | error e t =>
        rw [hx] at hfinal
        have hsame : db' = t := hfinal
        exact hsame ▸ h.error hx

theorem rearranges_run (h : Ordered o db) (op : Operation) (hop : makesBoard op = false) :
    Rearranges (op.run conn) db o (ordersAfter db o op) := by
  cases op with
  | createCard p =>
      refine (Rearranges.of_atomic h (createCard_atomic p) fun card db' hrun => ?_).dropping
      obtain ⟨column, hcolumn, hdone⟩ := createCard_ordered h hrun
      simpa only [ordersAfter, hcolumn] using hdone
  | createCardAndEnqueue p run =>
      refine (Rearranges.of_atomic h (createCardAndEnqueueUow_atomic p run)
        fun created db' hrun => ?_).dropping
      obtain ⟨column, hcolumn, hdone⟩ := createCardAndEnqueueUow_ordered h hrun
      simpa only [ordersAfter, hcolumn] using hdone
  | duplicateCard id =>
      refine (Rearranges.of_atomic h (duplicateCard_atomic id) fun copy db' hrun => ?_).dropping
      obtain ⟨card, hcard, hdone⟩ := duplicateCard_ordered h hrun
      simpa only [ordersAfter, hcard] using hdone
  | updateCard p =>
      exact (Rearranges.of_keeps h (keeps_standing_updateCard standingBlind_places p)).dropping
  | setCardArchived id archived =>
      exact (Rearranges.of_keeps h
        (keeps_standing_setCardArchived standingBlind_places id archived)).dropping
  | moveCard id column position =>
      exact (Rearranges.of_atomic h (moveCard_atomic id column position) fun _ _ =>
        moveCard_ordered h).dropping
  | moveCardAndEnqueue id column position run =>
      exact (Rearranges.of_atomic h (moveCardAndEnqueueUow_atomic id column position run)
        fun _ _ => moveCardAndEnqueueUow_ordered h).dropping
  | transferCard id board column position =>
      exact (Rearranges.of_atomic h (transferCard_atomic id board column position) fun _ _ =>
        transferCard_ordered h).dropping
  | transferCardAndEnqueue id board column position run =>
      exact (Rearranges.of_atomic h (transferCardAndEnqueueUow_atomic id board column position run)
        fun _ _ => transferCardAndEnqueueUow_ordered h).dropping
  | deleteCard id => exact .of_atomic h (Comments.deleteCard_atomic id) fun _ _ =>
      deleteCard_ordered h
  | setCardStatus id status =>
      exact (Rearranges.of_keeps h
        (keeps_standing_setCardStatus standingBlind_places id status)).dropping
  | setCardAwaiting id reason =>
      exact (Rearranges.of_keeps h
        (keeps_standing_setCardAwaiting standingBlind_places id reason)).dropping
  | pauseRunTimeout cardId reason nowMs =>
      exact (Rearranges.of_keeps h
        (keeps_standing_pauseRunTimeoutUow standingBlind_places cardId reason nowMs)).dropping
  | resumeRunTimeout cardId status nowMs =>
      exact (Rearranges.of_keeps h
        (keeps_standing_resumeRunTimeoutUow standingBlind_places cardId status nowMs)).dropping
  | enqueueRun p =>
      exact (Rearranges.of_keeps h
        (keeps_standing_enqueueRunUow standingBlind_places runBlind_places p)).dropping
  | promoteRun runId workspaceId paneId anchorPaneId deadline captured =>
      exact (Rearranges.of_keeps h
        (keeps_standing_promoteRunWithAnchorUow standingBlind_places runId workspaceId paneId
          anchorPaneId deadline captured)).dropping
  | promoteCapturedSession runId sessionId =>
      exact (Rearranges.of_keeps h
        (keeps_standing_promoteCapturedSessionUow standingBlind_places runId sessionId)).dropping
  | finalizeRun p =>
      refine (Rearranges.of_atomic h (finalizeRunUow_atomic p) fun effects db' hrun => ?_).dropping
      obtain ⟨run, hfind, hdone⟩ := finalizeRunUow_ordered h hrun
      simpa only [ordersAfter, hfind] using hdone
  | createColumn p =>
      exact (Rearranges.of_atomic h (createColumn_atomic p) fun _ _ =>
        createColumn_ordered h).dropping
  | updateColumn p =>
      refine (Rearranges.of_atomic h (updateColumn_atomic p) fun column db' hrun => ?_).dropping
      obtain ⟨old, hold, hdone⟩ := updateColumn_ordered h hrun
      simpa only [ordersAfter, hold] using hdone
  | reorderColumn id position =>
      refine (Rearranges.of_atomic h (reorderColumn_atomic id position)
        fun columns db' hrun => ?_).dropping
      obtain ⟨column, hcolumn, hdone⟩ := reorderColumn_ordered h hrun
      simpa only [ordersAfter, hcolumn] using hdone
  | deleteColumn id dst =>
      exact .of_atomic h (deleteColumn_atomic id dst) fun _ _ => deleteColumn_ordered h
  | applyTemplateColumns board specs wiring =>
      exact (Rearranges.of_atomic h (applyTemplateColumnsUow_atomic board specs wiring)
        fun _ _ => applyTemplateColumnsUow_ordered h).dropping
  | addComment cardId author body =>
      exact (Rearranges.of_keeps h
        (keeps_addComment commentBlind_places conn cardId author body)).dropping
  | updateComment id body =>
      exact (Rearranges.of_keeps h (keeps_updateComment commentBlind_places conn id body)).dropping
  | softDeleteComment id =>
      exact (Rearranges.of_keeps h (keeps_softDeleteComment commentBlind_places conn id)).dropping
  | openBoard scopePath => cases hop
  | createProjectContext scopePath => cases hop
  | openProjectContext scopePath => cases hop
  | selectProjectByScope scopePath boardId =>
      exact (Rearranges.of_keeps h
        (keeps_selectProjectByScope siteBlind_places.picker scopePath boardId)).dropping
  | selectBoard boardId =>
      exact (Rearranges.of_keeps h (keeps_selectBoard siteBlind_places.picker boardId)).dropping
  | createBoard projectId name => cases hop
  | renameBoard id name =>
      exact (Rearranges.of_keeps h (keeps_renameBoard siteBlind_places id name)).dropping
  | setBoardArchived boardId archived =>
      exact (Rearranges.of_keeps h
        (keeps_setBoardArchived siteBlind_places conn boardId archived)).dropping
  | setProjectArchived scopePath archived =>
      exact (Rearranges.of_keeps h
        (keeps_setProjectArchived siteBlind_places conn scopePath archived)).dropping

/-! ## Calls that make a board -/

/-- The new board may be there or not. -/
def MaybeSeeded (o o' : Orders) (db : Db) : Prop := Ordered o db ∨ Ordered o' db

/-- Whether the new board is there does not change. -/
def StaysSeeded (o o' : Orders) (db db' : Db) : Prop := MaybeSeeded o o' db → MaybeSeeded o o' db'

instance : Std.Refl (StaysSeeded o o') := ⟨fun _ h => h⟩

instance : IsTrans Db (StaysSeeded o o') := ⟨fun _ _ _ h h' => h' ∘ h⟩

theorem staysSeeded_of_keeps (hx : KeepsTables Tables.places x) : Respects (StaysSeeded o o') x :=
  fun db h => h.imp (fun h => h.of_places (hx db)) fun h => h.of_places (hx db)

/-- A transaction that makes the board, and what follows it. -/
theorem maybeSeeded_of_tx {β : Type} {tx : StoreM α} {f : α → StoreM β} (h : Ordered o db)
    (htx : ∀ {a db'}, tx db = .ok a db' → Ordered o' db')
    (hf : ∀ a, KeepsTables Tables.places (f a)) :
    MaybeSeeded o o' (finalState ((transaction tx >>= f) db)) := by
  have hstart : MaybeSeeded o o' db := .inl h
  refine @bind_at _ _ _ _ (StaysSeeded o o') _ _ _ db ?_
    (fun a t _ => staysSeeded_of_keeps (hf a) t) hstart
  exact (atomic_transaction tx).at fun a db' hrun _ => .inr (htx (transaction_ok.mp hrun))

theorem maybeSeeded_bind {β : Type} {f : α → StoreM β} (hx : MaybeSeeded o o' (finalState (x db)))
    (hf : ∀ a, KeepsTables Tables.places (f a)) : MaybeSeeded o o' (finalState ((x >>= f) db)) := by
  rw [run_bind]
  cases h : x db with
  | ok a t =>
      rw [h] at hx
      exact staysSeeded_of_keeps (hf a) t hx
  | error e t =>
      rw [h] at hx
      exact hx

theorem maybeSeeded_readOnly {β : Type} {f : α → StoreM β} (h : Ordered o db) (hx : ReadOnly x)
    (hf : ∀ a, MaybeSeeded o o' (finalState (f a db))) :
    MaybeSeeded o o' (finalState ((x >>= f) db)) := by
  have hsame := hx db
  rw [run_bind]
  cases hrun : x db with
  | ok a t =>
      cases hx.ok hrun
      exact hf a
  | error e t =>
      rw [hrun] at hsame
      have hsame : t = db := hsame
      show MaybeSeeded o o' t
      rw [hsame]
      exact .inl h

section Seeding

variable (h : Ordered o db)

include h

theorem getOrCreateProject_ordered {scopePath : String} {project : Project}
    (hrun : getOrCreateProject scopePath db = .ok project db') :
    Ordered (if (db.projectByScope scopePath).isSome then o else o.seed db) db' := by
  simp only [getOrCreateProject, bind_ok, refuse_ok, get_ok] at hrun
  obtain ⟨_, _, ⟨-, rfl⟩, _, _, ⟨rfl, rfl⟩, hrun⟩ := hrun
  cases hfound : db.projectByScope scopePath with
  | some project =>
      rw [hfound] at hrun
      obtain ⟨-, rfl⟩ := pure_ok.mp hrun
      exact h
  | none =>
      rw [hfound] at hrun
      simp only [bind_ok, transaction_ok, getProject_ok] at hrun
      obtain ⟨_, _, hinserted, -, rfl⟩ := hrun
      exact insertProjectWithBoard_ordered h (keeps_yard_insertProjectRow scopePath) hinserted

theorem getOrCreateProject_maybe (scopePath : String) :
    MaybeSeeded o (o.seed db) (finalState (getOrCreateProject scopePath db)) := by
  refine maybeSeeded_readOnly h (readOnly_refuse _ _) fun _ => ?_
  rw [get_bind_run]
  cases db.projectByScope scopePath with
  | some project => exact .inl h
  | none =>
      exact maybeSeeded_of_tx h
        (insertProjectWithBoard_ordered h (keeps_yard_insertProjectRow scopePath))
        fun ids => (readOnly_getProject ids.1).respects

theorem openBoard_ordered {scopePath : String} {board : Board}
    (hrun : openBoard scopePath db = .ok board db') :
    Ordered (if (db.projectByScope scopePath).isSome then o else o.seed db) db' := by
  obtain ⟨project, mid, hproject, hread⟩ := bind_ok.mp hrun
  cases (readOnly_projectContextBoard project.id).ok hread
  exact getOrCreateProject_ordered h hproject

theorem openProjectContext_ordered {scopePath : String} {context : Project × Board}
    (hrun : openProjectContext scopePath db = .ok context db') :
    Ordered (if (db.projectByScope scopePath).isSome then o else o.seed db) db' := by
  simp only [openProjectContext, bind_ok, refuse_ok, transaction_ok, pure_ok] at hrun
  obtain ⟨_, _, ⟨-, rfl⟩, project, mid, hproject, board, _, hread, _, _, hselect, -, rfl⟩ := hrun
  cases (readOnly_projectContextBoard project.id).ok hread
  exact (getOrCreateProject_ordered h hproject).keeps
    (keeps_selectTx siteBlind_places.picker _ _) hselect

theorem createProject_ordered {scopePath duplicate : String} {ids : Int × Int} (hrun : (do
    let ids ← insertProjectWithBoard (rejectDuplicate duplicate (insertProjectRow scopePath))
    selectTx ids.1 ids.2
    pure ids : StoreM (Int × Int)) db = .ok ids db') : Ordered (o.seed db) db' := by
  simp only [bind_ok, pure_ok] at hrun
  obtain ⟨_, inserted, hinserted, _, _, hselect, -, rfl⟩ := hrun
  have hkeeps : KeepsTables Tables.yard (rejectDuplicate duplicate (insertProjectRow scopePath)) :=
    keeps_rejectDuplicate (keeps_yard_insertProjectRow scopePath)
  exact (insertProjectWithBoard_ordered h hkeeps hinserted).keeps
    (keeps_selectTx siteBlind_places.picker _ _) hselect

theorem createBoardTx_ordered {projectId boardId : Int} {name duplicate : String} (hrun : (do
    let boardId ← rejectDuplicate duplicate
        (insertBoard fun id => { id, projectId, name, archivedAt := none })
    seedTodoTx boardId
    selectTx projectId boardId
    pure boardId : StoreM Int) db = .ok boardId db') : Ordered (o.seed db) db' := by
  simp only [bind_ok, rejectDuplicate_ok, pure_ok] at hrun
  obtain ⟨_, inserted, hinserted, _, _, hseed, _, _, hselect, -, rfl⟩ := hrun
  exact (insertBoard_ordered h hinserted hseed).keeps
    (keeps_selectTx siteBlind_places.picker _ _) hselect

theorem makesBoard_run (op : Operation) (hop : makesBoard op = true) :
    (∀ {u db'}, op.run conn db = .ok u db' → Ordered (ordersAfter db o op) db') ∧
      MaybeSeeded o (o.seed db) (finalState (op.run conn db)) := by
  cases op with
  | openBoard scopePath =>
      refine ⟨fun hrun => ?_, ?_⟩
      · obtain ⟨_, hrun⟩ := dropping_ok.mp hrun
        exact openBoard_ordered h hrun
      · simp only [Operation.run, finalState_dropping]
        exact maybeSeeded_bind (getOrCreateProject_maybe h scopePath) fun project =>
          (readOnly_projectContextBoard project.id).respects
  | openProjectContext scopePath =>
      refine ⟨fun hrun => ?_, ?_⟩
      · obtain ⟨_, hrun⟩ := dropping_ok.mp hrun
        exact openProjectContext_ordered h hrun
      · simp only [Operation.run, finalState_dropping]
        refine maybeSeeded_readOnly h (readOnly_refuse _ _) fun _ =>
          maybeSeeded_bind (getOrCreateProject_maybe h scopePath) fun project => ?_
        refine (readOnly_projectContextBoard project.id).respects.bind fun board => ?_
        exact (keeps_selectTx siteBlind_places.picker project.id board.id).transaction.bind fun _ =>
          respects_pure _
  | createProjectContext scopePath =>
      refine ⟨fun hrun => ?_, ?_⟩
      · obtain ⟨_, hrun⟩ := dropping_ok.mp hrun
        obtain ⟨_, _, hrefuse, hrun⟩ := bind_ok.mp hrun
        cases (readOnly_refuse _ _).ok hrefuse
        obtain ⟨ids, made, htx, hread⟩ := bind_ok.mp hrun
        refine (createProject_ordered h (transaction_ok.mp htx)).keeps ?_ hread
        exact (readOnly_getProject _).respects.bind fun _ =>
          (readOnly_getBoard _).respects.bind fun _ => respects_pure _
      · simp only [Operation.run, finalState_dropping]
        refine maybeSeeded_readOnly h (readOnly_refuse _ _) fun _ =>
          maybeSeeded_of_tx h (createProject_ordered h) fun ids => ?_
        exact (readOnly_getProject _).respects.bind fun _ =>
          (readOnly_getBoard _).respects.bind fun _ => respects_pure _
  | createBoard projectId name =>
      refine ⟨fun hrun => ?_, ?_⟩
      · obtain ⟨_, hrun⟩ := dropping_ok.mp hrun
        obtain ⟨_, _, hrefuse, hrun⟩ := bind_ok.mp hrun
        cases (readOnly_refuse _ _).ok hrefuse
        obtain ⟨project, _, hproject, hrun⟩ := bind_ok.mp hrun
        cases (readOnly_getProject _).ok hproject
        obtain ⟨_, _, hrefuse, hrun⟩ := bind_ok.mp hrun
        cases (readOnly_refuse _ _).ok hrefuse
        obtain ⟨boardId, made, htx, hread⟩ := bind_ok.mp hrun
        exact (createBoardTx_ordered h (transaction_ok.mp htx)).keeps
          (readOnly_getBoard _).respects hread
      · simp only [Operation.run, finalState_dropping]
        refine maybeSeeded_readOnly h (readOnly_refuse _ _) fun _ =>
          maybeSeeded_readOnly h (readOnly_getProject _) fun project => ?_
        refine maybeSeeded_readOnly h (readOnly_refuse _ _) fun _ => ?_
        exact maybeSeeded_of_tx h (createBoardTx_ordered h) fun _ => (readOnly_getBoard _).respects
  | _ => cases hop

end Seeding

/-! ## Histories -/

theorem ordered_fresh : Ordered (orders Db.fresh) Db.fresh where
  cards g := ⟨Table.nodup_slots, fun r hr _ => absurd hr List.not_mem_nil, fun k hk => by
    obtain ⟨r, hr, -⟩ := Table.mem_slots.mp hk
    exact absurd hr List.not_mem_nil⟩
  columns g := by
    refine ⟨Table.nodup_slots, fun r hr hg => ?_, fun k hk => ?_⟩
    · refine ⟨Table.mem_slots.mpr ⟨r, hr, hg, rfl⟩, ?_⟩
      obtain rfl := List.mem_singleton.mp hr
      obtain rfl : 1 = g := hg
      decide
    · obtain ⟨r, hr, hg, hkey⟩ := Table.mem_slots.mp hk
      exact ⟨r, hr, hg, hkey⟩

/-- The orders of a reachable store are those of its queries. -/
theorem ordered_of_reachable (h : history.Reachable db) : Ordered (orders db) db := by
  refine history_invariant (I := fun db => Ordered (orders db) db) ordered_fresh
    (fun db conn op h _ => ?_) h
  have hsettle {o : Orders} {db : Db} (h : Ordered o db) : Ordered (orders db) db := h.orders_eq ▸ h
  cases hop : makesBoard op with
  | true => exact (makesBoard_run h op hop).2.elim hsettle hsettle
  | false =>
      have hrearranges := @rearranges_run conn _ _ h op hop
      cases hrun : op.run conn db with
      | ok u db' => exact hsettle (hrearranges.ok hrun)
      | error e db' => exact hsettle (hrearranges.error hrun)

/-- The positions of a group, in order. -/
def positions {ρ : Type} [Placed ρ] (t : Table ρ) (g : Int) : List Int :=
  (t.ordered fun r => Placed.group r == g).map Placed.position

theorem positions_eq {ρ : Type} [Placed ρ] {t : Table ρ} {A : Arrangement}
    (h : t.Arranges A) (g : Int) :
    positions t g = (List.range (A g).length).map fun i : Nat => (i : Int) := (h g).positions_eq

/-- Throughout every history positions are dense, and a call that succeeds moves only what
it is about. -/
theorem positions_stay_dense (h : history.Reachable db) :
    (∀ column, positions db.cards column = (List.range (db.cards.slots column).length).map
      fun i : Nat => (i : Int)) ∧
    (∀ board, positions db.columns board = (List.range (db.columns.slots board).length).map
    fun i : Nat => (i : Int)) ∧ ∀ conn op,
      (∀ u db', op.run conn db = .ok u db' → orders db' = ordersAfter db (orders db) op) ∧
      (∀ e db', op.run conn db = .error e db' →
        orders db' = orders db ∨ makesBoard op = true ∧ orders db' = (orders db).seed db) := by
  have hordered := ordered_of_reachable h
  refine ⟨positions_eq hordered.cards, positions_eq hordered.columns, fun conn op => ?_⟩
  cases hop : makesBoard op with
  | true =>
      have hruns := @makesBoard_run conn _ _ hordered op hop
      refine ⟨fun u db' hrun => (hruns.1 hrun).orders_eq, fun e db' hrun => ?_⟩
      have hfinal := hruns.2
      rw [hrun] at hfinal
      exact hfinal.imp Ordered.orders_eq fun h => ⟨rfl, h.orders_eq⟩
  | false =>
      have hrearranges := @rearranges_run conn _ _ hordered op hop
      exact ⟨fun u db' hrun => (hrearranges.ok hrun).orders_eq,
        fun e db' hrun => .inl (hrearranges.error hrun).orders_eq⟩

/-- Two cards, the second moved above the top. -/
def swapped : Db := afterCalls
  [(permissiveEnv.conn, .createCard { title := "First" }),
    (permissiveEnv.conn, .createCard { title := "Second" }),
    (permissiveEnv.conn, .moveCard 2 1 (some (-3)))]

theorem positions_stay_dense_swapped :
    swapped.cards.slots 1 = [2, 1] ∧ positions swapped.cards 1 = [0, 1] ∧
    ∃ db', (Operation.duplicateCard 2).run permissiveEnv.conn swapped = .ok () db' ∧
      (orders db').cards = (orders swapped).cards.put 3 1 (some 1) := by
  have hslots : swapped.cards.slots 1 = [2, 1] := by decide +kernel
  have hreachable : history.Reachable swapped := reachable_afterCalls _
  obtain ⟨hcards, -, hcalls⟩ := positions_stay_dense hreachable
  have hdone : succeeded ((Operation.duplicateCard 2).run permissiveEnv.conn swapped) = true := by
    decide +kernel
  obtain ⟨u, db', hrun⟩ := ok_of_succeeded hdone
  refine ⟨hslots, ?_, db', hrun, ?_⟩
  · rw [hcards, hslots]
    rfl
  · rw [(hcalls _ _).1 () db' hrun]
    have hcard : (swapped.card? 2).map (fun c => c.columnId) = some 1 := by decide +kernel
    obtain ⟨card, hfind, hcolumn⟩ := Option.map_eq_some_iff.mp hcard
    have hnext : swapped.cards.nextKey = 3 := by decide +kernel
    simp only [ordersAfter, hfind, hcolumn, hnext]
    show (orders swapped).cards.put 3 1 (some ((swapped.cards.slots 1).idxOf 2 + 1)) = _
    rw [hslots]
    rfl

end HerdrBoard.Editing
