import HerdrBoard.Core.Lemmas.Reads

/-!
# Frames

Which tables an operation leaves as they are. `work` is the part of the store that cards and
runs make up. -/

namespace HerdrBoard.Core

open Lib

def Tables.work (t : Tables) : Table Card × Table Run := (t.cards, t.runs)

/-! ## What an image may ignore -/

section Blind

variable {γ : Type}

def CommentBlind (π : Tables → γ) : Prop :=
  ∀ t comments history, π { t with comments := comments, commentHistory := history } = π t

def ColumnBlind (π : Tables → γ) : Prop := ∀ t columns, π { t with columns := columns } = π t

def PickerBlind (π : Tables → γ) : Prop :=
  ∀ t selection boardSelection projectRecents boardRecents,
    π { t with selection, boardSelection, projectRecents, boardRecents } = π t

/-- The image sees neither projects and boards nor which of them are selected. -/
structure SiteBlind (π : Tables → γ) : Prop where
  boards : ∀ t projects boards, π { t with projects := projects, boards := boards } = π t
  picker : PickerBlind π

/-- The image sees neither cards nor runs. -/
def WorkBlind (π : Tables → γ) : Prop :=
  ∀ t cards runs, π { t with cards := cards, runs := runs } = π t

/-- The image does not see the positions of cards. -/
def PositionBlind (π : Tables → γ) : Prop :=
  ∀ (t : Tables) p i, π
    { t with cards := t.cards.update p (Placed.setPosition i) (Placed.key_setPosition _) } = π t

/-- The image does not see where on their boards cards stand. -/
def PlaceBlind (π : Tables → γ) : Prop :=
  ∀ (t : Tables) p f hkey,
    (∀ c : Card, ∃ columnId position updatedAt, f c = { c with columnId, position, updatedAt }) →
      π { t with cards := t.cards.update p f hkey } = π t

end Blind

section Comments

variable {γ : Type} {π : Tables → γ} (hπ : CommentBlind π)

include hπ

theorem keeps_insertComment (conn : Conn) (cardId : Int) (author body : String) :
    KeepsTables π (insertComment conn cardId author body) :=
  readOnly_get.respects.bind fun _ => Respects.bind (keeps_exec fun t => hπ t _ _) fun _ =>
    respects_pure _

theorem keeps_addComment (conn : Conn) (cardId : Int) (author body : String) :
    KeepsTables π (addComment conn cardId author body) :=
  (readOnly_requireCard cardId).respects.bind fun _ =>
    (keeps_insertComment hπ conn cardId author body).bind fun _ => (readOnly_lookup _ _).respects

theorem keeps_updateComment (conn : Conn) (id : Int) (body : String) :
    KeepsTables π (updateComment conn id body) := by
  refine (readOnly_requireComment id).respects.bind fun current => ?_
  refine (readOnly_refuse _ _).respects.bind fun _ =>
    (readOnly_refuse _ _).respects.bind fun _ => ?_
  refine Respects.bind (Respects.transaction ?_) fun _ => (readOnly_requireComment id).respects
  refine readOnly_get.respects.bind fun _ =>
    Respects.bind (keeps_exec fun t => hπ t _ _) fun _ => ?_
  exact (readOnly_refuse _ _).respects.bind fun _ => keeps_exec fun t => hπ t _ _

theorem keeps_softDeleteComment (conn : Conn) (id : Int) :
    KeepsTables π (softDeleteComment conn id) := by
  refine (readOnly_requireComment id).respects.bind fun current => ?_
  refine (readOnly_refuse _ _).respects.bind fun _ =>
    (readOnly_refuse _ _).respects.bind fun _ => ?_
  refine Respects.bind (Respects.transaction ?_) fun _ => (readOnly_requireComment id).respects
  exact Respects.bind (keeps_exec fun t => hπ t _ _) fun _ => readOnly_get.respects.bind fun _ =>
    keeps_exec fun t => hπ t _ _

theorem keeps_insertComments (conn : Conn) (cardId : Int) (comments : List (String × String)) :
    KeepsTables π (insertComments conn cardId comments) := by
  induction comments with
  | nil => exact respects_pure ()
  | cons comment comments ih =>
      exact (keeps_insertComment hπ conn cardId comment.1 comment.2).bind fun _ => ih

end Comments

/-! ## Places of cards -/

section Positions

variable {γ : Type} {π : Tables → γ} (hπ : PositionBlind π)

include hπ

theorem keeps_positions (ids : List Int) : KeepsTables π (setCardPositions ids) := by
  have hrenumber : ∀ (n : Nat) (cards : Table Card) (t : Tables),
      π { t with cards := cards.renumberFrom n ids } = π { t with cards } := by
    induction ids with
    | nil => exact fun _ _ _ => rfl
    | cons k ids ih =>
        intro n cards t
        exact (ih (n + 1) _ t).trans (hπ { t with cards } _ _)
  refine (setCardPositions_total ids).atomic.respects fun db _ db' hok => ?_
  exact (congrArg π (setCardPositions_ok.mp hok)).trans (hrenumber 0 db.cards db.toTables)

theorem keeps_positions_renumberColumnCardsTx (column : Int) :
    KeepsTables π (renumberColumnCardsTx column) :=
  readOnly_get.respects.bind fun _ => keeps_positions hπ _

end Positions

section Places

variable {γ : Type} {π : Tables → γ} (hπ : PlaceBlind π)

include hπ

theorem positionBlind_of_placeBlind :
    PositionBlind π := fun t _ _ => hπ t _ _ _ fun _ => ⟨_, _, _, rfl⟩

theorem keeps_setCardPositions (ids : List Int) : KeepsTables π (setCardPositions ids) :=
  keeps_positions (positionBlind_of_placeBlind hπ) ids

theorem keeps_placeCardInColumnTx (id column : Int) (position : Option Int) :
    KeepsTables π (placeCardInColumnTx id column position) :=
  readOnly_get.respects.bind fun _ => keeps_setCardPositions hπ _

theorem keeps_renumberColumnCardsTx (column : Int) : KeepsTables π (renumberColumnCardsTx column) :=
  keeps_positions_renumberColumnCardsTx (positionBlind_of_placeBlind hπ) column

theorem keeps_updateCards_place {p : Card → Bool} {f : Card → Card} {hkey}
    (hf : ∀ c, ∃ columnId position updatedAt, f c = { c with columnId, position, updatedAt }) :
    KeepsTables π (updateCards p f hkey) := keeps_updateCards fun t => hπ t _ _ _ hf

theorem keeps_moveCard (conn : Conn) (id column : Int) (position : Option Int) :
    KeepsTables π (moveCard conn id column position) := by
  refine (readOnly_requireCard id).respects.bind fun card => ?_
  refine (readOnly_requireColumn column).respects.bind fun _ =>
    (readOnly_refuse _ _).respects.bind fun _ => ?_
  refine Respects.bind (Respects.transaction ?_) fun _ => (readOnly_requireCard id).respects
  refine Respects.bind (keeps_updateCards_place hπ fun _ => ⟨_, _, _, rfl⟩) fun _ => ?_
  refine (keeps_placeCardInColumnTx hπ id column position).bind fun _ => ?_
  exact respects_ite (fun _ => keeps_renumberColumnCardsTx hπ _) fun _ => respects_pure ()

theorem keeps_moveCardsTo (conn : Conn) (dst : Int) (ids : List Int) :
    KeepsTables π (moveCardsTo conn dst ids) := by
  induction ids with
  | nil => exact respects_pure ()
  | cons id ids ih =>
      refine Respects.bind (keeps_updateCards_place hπ fun _ => ⟨_, _, _, rfl⟩) fun _ => ?_
      exact (keeps_placeCardInColumnTx hπ id dst none).bind fun _ => ih

theorem keeps_deleteColumn (hcolumns : ColumnBlind π) (conn : Conn) (id : Int) (dst : Option Int) :
    KeepsTables π (deleteColumn conn id dst) := by
  refine (readOnly_requireColumn id).respects.bind fun column => ?_
  refine (readOnly_checkDestination column.boardId dst).respects.bind fun _ =>
    Respects.transaction ?_
  refine readOnly_get.respects.bind fun db => ?_
  have hdelete : KeepsTables π (do
      deleteColumnRow id
      let db ← get
      setColumnPositions (db.columns.slots column.boardId)) := by
    refine Respects.bind (keeps_exec fun t => hcolumns t _) fun _ =>
      readOnly_get.respects.bind fun db => ?_
    exact keeps_setColumnPositions hcolumns _
  cases dst with
  | some dst => exact (keeps_moveCardsTo hπ conn dst _).bind fun _ => hdelete
  | none => exact hdelete

theorem keeps_applyTransition (cardId : Int) (target : Option Int) :
    KeepsTables π (applyTransition cardId target) := by
  cases target with
  | none => exact respects_pure ()
  | some columnId =>
      refine readOnly_get.respects.bind fun _ => (readOnly_refuse _ _).respects.bind fun _ => ?_
      refine (readOnly_requireCard cardId).respects.bind fun card => ?_
      refine Respects.bind (keeps_updateCards_place hπ fun _ => ⟨_, _, _, rfl⟩) fun _ =>
        readOnly_get.respects.bind fun _ => ?_
      refine (keeps_setCardPositions hπ _).bind fun _ => ?_
      exact respects_ite (fun _ => keeps_renumberColumnCardsTx hπ _) fun _ => respects_pure ()

end Places

/-! ## Selection -/

section Selection

variable {γ : Type} {π : Tables → γ} (hπ : PickerBlind π)

include hπ

theorem keeps_writeSelectionTx (projectId boardId : Int) :
    KeepsTables π (writeSelectionTx projectId boardId) :=
  Respects.bind (keeps_exec fun t => hπ t _ _ _ _) fun _ => keeps_exec fun t => hπ t _ _ _ _

theorem keeps_touchProjectRecencyTx (projectId : Int) :
    KeepsTables π (touchProjectRecencyTx projectId) :=
  readOnly_get.respects.bind fun _ => keeps_exec fun t => hπ t _ _ _ _

theorem keeps_touchBoardRecencyTx (projectId boardId : Int) :
    KeepsTables π (touchBoardRecencyTx projectId boardId) :=
  readOnly_get.respects.bind fun _ => keeps_exec fun t => hπ t _ _ _ _

theorem keeps_selectTx (projectId boardId : Int) : KeepsTables π (selectTx projectId boardId) :=
  (keeps_writeSelectionTx hπ projectId boardId).bind fun _ =>
    (keeps_touchProjectRecencyTx hπ projectId).bind fun _ =>
      keeps_touchBoardRecencyTx hπ projectId boardId

theorem keeps_selectProjectByScope (scopePath : String) (boardId : Option Int) :
    KeepsTables π (selectProjectByScope scopePath boardId) := by
  refine (readOnly_requireProjectByScope scopePath).respects.bind fun project => ?_
  refine (readOnly_selectedBoard project boardId).respects.bind fun board => ?_
  exact (keeps_selectTx hπ project.id board.id).transaction.bind fun _ => respects_pure _

theorem keeps_selectBoard (boardId : Int) : KeepsTables π (selectBoard boardId) := by
  refine (readOnly_getBoard boardId).respects.bind fun board => ?_
  refine (readOnly_getProject _).respects.bind fun project => ?_
  exact (keeps_selectTx hπ project.id board.id).transaction.bind fun _ => respects_pure _

theorem keeps_selectFallbackProject (conn : Conn) :
    KeepsTables π (selectFallbackProject conn) := by
  refine readOnly_get.respects.bind fun db => ?_
  split
  · exact keeps_exec fun t => hπ t _ _ _ _
  · next pid _ =>
      split
      · next board _ =>
          exact (keeps_writeSelectionTx hπ pid board.id).bind fun _ =>
            (keeps_touchProjectRecencyTx hπ pid).bind fun _ =>
              keeps_touchBoardRecencyTx hπ pid board.id
      · exact keeps_exec fun t => hπ t _ _ _ _

theorem keeps_reselectAfterArchive (conn : Conn) (projectId boardId : Int) :
    KeepsTables π (reselectAfterArchive conn projectId boardId) := by
  refine readOnly_get.respects.bind fun db => respects_ite (fun _ => ?_) fun _ => respects_pure ()
  split
  · next fallback _ =>
      exact (keeps_writeSelectionTx hπ projectId fallback).bind fun _ =>
        (keeps_touchBoardRecencyTx hπ projectId fallback).bind fun _ =>
          keeps_touchProjectRecencyTx hπ projectId
  · refine Respects.bind (keeps_exec fun t => hπ t _ _ _ _) fun _ => ?_
    exact respects_ite (fun _ => keeps_selectFallbackProject hπ conn) fun _ => respects_pure ()

end Selection

/-! ## Columns -/

section Columns

variable {γ : Type} {π : Tables → γ} (hπ : ColumnBlind π)

include hπ

theorem keeps_insertColumn {row : Int → Column} {hkey} : KeepsTables π (insertColumn row hkey) :=
  keeps_execBetween fun t => hπ t _

theorem keeps_updateColumns {p : Column → Bool} {f : Column → Column} {hkey} :
    KeepsTables π (updateColumns p f hkey) := keeps_exec fun t => hπ t _

theorem keeps_seedTodoTx (boardId : Int) : KeepsTables π (seedTodoTx boardId) := by
  refine readOnly_get.respects.bind fun db => respects_ite (fun _ => ?_) fun _ => respects_pure ()
  exact (keeps_insertColumn hπ).bind fun _ => respects_pure ()

theorem keeps_reorderColumn (id position : Int) : KeepsTables π (reorderColumn id position) :=
  (readOnly_requireColumn id).respects.bind fun _ => Respects.bind
    (Respects.transaction (readOnly_get.respects.bind fun _ => keeps_setColumnPositions hπ _))
    fun _ => readOnly_get.respects.bind fun _ => respects_pure _

theorem keeps_createColumn (p : ColumnCreateParams) : KeepsTables π (createColumn p) := by
  refine (readOnly_getBoard _).respects.bind fun _ =>
    (readOnly_validateColumnTargets _ _ _).respects.bind
    fun _ => readOnly_get.respects.bind fun db => ?_
  refine (keeps_rejectDuplicate (keeps_insertColumn hπ)).bind fun id => ?_
  split
  · exact (keeps_reorderColumn hπ id _).bind fun _ => (readOnly_requireColumn id).respects
  · exact (readOnly_requireColumn id).respects

theorem keeps_updateColumn (p : ColumnUpdateParams) : KeepsTables π (updateColumn p) := by
  refine (readOnly_requireColumn p.id).respects.bind fun current => ?_
  refine (readOnly_validateColumnTargets _ _ _).respects.bind fun _ => ?_
  refine Respects.bind (keeps_rejectDuplicate (keeps_updateColumns hπ)) fun _ => ?_
  split
  · exact (keeps_reorderColumn hπ _ _).bind fun _ => (readOnly_requireColumn _).respects
  · exact (readOnly_requireColumn _).respects

theorem keeps_insertTemplateColumns (boardId : Int) (specs : List ColumnCreateParams) :
    KeepsTables π (insertTemplateColumns boardId specs) := by
  induction specs with
  | nil => exact respects_pure []
  | cons spec specs ih =>
      refine readOnly_get.respects.bind fun db => ?_
      exact (keeps_rejectDuplicate (keeps_insertColumn hπ)).bind fun id => ih.bind
        fun ids => respects_pure _

theorem keeps_wireColumns (boardId : Int) (ids : List Int) (wiring : List ColumnWiring) :
    KeepsTables π (wireColumns boardId ids wiring) := by
  induction wiring with
  | nil => exact respects_pure ()
  | cons wire wiring ih =>
      refine (readOnly_okOr _ _).respects.bind fun columnId => ?_
      refine (readOnly_resolveTarget boardId ids _).respects.bind fun _ => ?_
      refine (readOnly_resolveTarget boardId ids _).respects.bind fun _ => ?_
      exact (keeps_updateColumns hπ).bind fun _ => ih

theorem keeps_applyTemplateColumnsUow (boardId : Int) (specs : List ColumnCreateParams)
    (wiring : List ColumnWiring) :
    KeepsTables π (applyTemplateColumnsUow boardId specs wiring) := by
  refine (readOnly_getBoard boardId).respects.bind fun _ => ?_
  refine (readOnly_checkTemplateSpecs boardId specs).respects.bind fun _ => ?_
  refine Respects.bind (Respects.transaction ?_) fun _ => readOnly_get.respects.bind fun _ =>
    respects_pure _
  exact (keeps_insertTemplateColumns hπ boardId specs).bind fun ids =>
    keeps_wireColumns hπ boardId ids wiring

end Columns

/-! ## Boards and projects -/

section Sites

variable {γ : Type} {π : Tables → γ}

section

variable (hπ : SiteBlind π)

include hπ

theorem keeps_renameBoard (id : Int) (name : String) : KeepsTables π (renameBoard id name) := by
  refine (readOnly_refuse _ _).respects.bind fun _ =>
    (readOnly_getBoard id).respects.bind fun _ => ?_
  refine Respects.bind (keeps_rejectDuplicate ?_) fun _ => (readOnly_getBoard id).respects
  exact keeps_exec fun t => hπ.boards t _ _

theorem keeps_setBoardArchived (conn : Conn) (boardId : Int) (archived : Bool) :
    KeepsTables π (setBoardArchived conn boardId archived) := by
  refine (readOnly_getBoard boardId).respects.bind fun board => ?_
  refine respects_ite (fun _ => respects_pure board) fun _ => ?_
  refine Respects.bind (Respects.transaction ?_) fun _ => (readOnly_getBoard boardId).respects
  refine readOnly_get.respects.bind fun db => (readOnly_fromExcept _).respects.bind fun _ => ?_
  refine Respects.bind (keeps_exec fun t => hπ.boards t _ _) fun _ => ?_
  exact respects_ite (fun _ => keeps_reselectAfterArchive hπ.picker conn board.projectId boardId)
    fun _ => respects_pure ()

theorem keeps_setProjectArchived (conn : Conn) (scopePath : String) (archived : Bool) :
    KeepsTables π (setProjectArchived conn scopePath archived) := by
  refine (readOnly_requireProjectByScope scopePath).respects.bind fun project => ?_
  refine respects_ite (fun _ => respects_pure project) fun _ => ?_
  refine Respects.bind (Respects.transaction ?_) fun _ => (readOnly_getProject project.id).respects
  refine readOnly_get.respects.bind fun db => (readOnly_fromExcept _).respects.bind fun _ => ?_
  refine Respects.bind (keeps_exec fun t => hπ.boards t _ _) fun _ => ?_
  exact respects_ite (fun _ => keeps_selectFallbackProject hπ.picker conn) fun _ => respects_pure ()

theorem keeps_insertBoard {row : Int → Board} {hkey} : KeepsTables π (insertBoard row hkey) :=
  keeps_execBetween fun t => hπ.boards t _ _

theorem keeps_insertProjectRow (scopePath : String) : KeepsTables π (insertProjectRow scopePath) :=
  keeps_execBetween fun t => hπ.boards t _ _

end

variable (hπ : SiteBlind π) (hcolumns : ColumnBlind π)

include hπ hcolumns

theorem keeps_insertProjectWithBoard {insertRow : StoreM Int} (h : KeepsTables π insertRow) :
    KeepsTables π (insertProjectWithBoard insertRow) :=
  h.bind fun _ => (keeps_insertBoard hπ).bind fun boardId =>
    (keeps_seedTodoTx hcolumns boardId).bind fun _ => respects_pure _

theorem keeps_getOrCreateProject (scopePath : String) :
    KeepsTables π (getOrCreateProject scopePath) := by
  refine (readOnly_refuse _ _).respects.bind fun _ => readOnly_get.respects.bind fun db => ?_
  split
  · exact respects_pure _
  · exact (keeps_insertProjectWithBoard hπ hcolumns
      (keeps_insertProjectRow hπ scopePath)).transaction.bind
      fun ids => (readOnly_getProject ids.1).respects

theorem keeps_openBoard (scopePath : String) : KeepsTables π (openBoard scopePath) :=
  (keeps_getOrCreateProject hπ hcolumns scopePath).bind fun project =>
    (readOnly_projectContextBoard project.id).respects

theorem keeps_createProjectContext (scopePath : String) :
    KeepsTables π (createProjectContext scopePath) := by
  refine (readOnly_refuse _ _).respects.bind fun _ =>
    Respects.bind (Respects.transaction ?_) fun ids =>
    (readOnly_getProject ids.1).respects.bind fun _ => (readOnly_getBoard ids.2).respects.bind
      fun _ => respects_pure _
  refine (keeps_insertProjectWithBoard hπ hcolumns
    (keeps_rejectDuplicate (keeps_insertProjectRow hπ scopePath))).bind
    fun ids => ?_
  exact (keeps_selectTx hπ.picker ids.1 ids.2).bind fun _ => respects_pure ids

theorem keeps_openProjectContext (scopePath : String) :
    KeepsTables π (openProjectContext scopePath) := by
  refine (readOnly_refuse _ _).respects.bind fun _ => ?_
  refine (keeps_getOrCreateProject hπ hcolumns scopePath).bind fun project => ?_
  refine (readOnly_projectContextBoard project.id).respects.bind fun board => ?_
  exact (keeps_selectTx hπ.picker project.id board.id).transaction.bind fun _ => respects_pure _

theorem keeps_createBoard (projectId : Int) (name : String) :
    KeepsTables π (createBoard projectId name) := by
  refine (readOnly_refuse _ _).respects.bind fun _ =>
    (readOnly_getProject projectId).respects.bind fun _ => ?_
  refine (readOnly_refuse _ _).respects.bind fun _ => Respects.bind (Respects.transaction ?_)
    fun boardId => (readOnly_getBoard boardId).respects
  refine (keeps_rejectDuplicate (keeps_insertBoard hπ)).bind fun boardId => ?_
  exact (keeps_seedTodoTx hcolumns boardId).bind fun _ =>
    (keeps_selectTx hπ.picker projectId boardId).bind fun _ => respects_pure boardId

end Sites

/-! ## Projects and boards with their seed columns -/

section Seeding

variable {γ : Type} {π : Tables → γ} {R : Db → Db → Prop} [Std.Refl R] [IsTrans Db R]
    (hπ : SiteBlind π)
  (hR : ∀ s t, SameBy (fun db : Db => π db.toTables) s t → R s t)
  (hseed : ∀ boardId, Respects R (seedTodoTx boardId))

include hπ hR hseed

theorem respects_insertProjectWithBoard {insertRow : StoreM Int} (h : KeepsTables π insertRow) :
    Respects R (insertProjectWithBoard insertRow) :=
  (h.mono hR).bind fun _ => ((keeps_insertBoard hπ).mono hR).bind fun boardId =>
    (hseed boardId).bind fun _ => respects_pure _

theorem respects_getOrCreateProject (scopePath : String) :
    Respects R (getOrCreateProject scopePath) := by
  refine (readOnly_refuse _ _).respects.bind fun _ => readOnly_get.respects.bind fun db => ?_
  split
  · exact respects_pure _
  · exact (respects_insertProjectWithBoard hπ hR hseed
      (keeps_insertProjectRow hπ scopePath)).transaction.bind
      fun ids => (readOnly_getProject ids.1).respects

theorem respects_openBoard (scopePath : String) : Respects R (openBoard scopePath) :=
  (respects_getOrCreateProject hπ hR hseed scopePath).bind fun project =>
    (readOnly_projectContextBoard project.id).respects

theorem respects_openProjectContext (scopePath : String) :
    Respects R (openProjectContext scopePath) := by
  refine (readOnly_refuse _ _).respects.bind fun _ =>
    (respects_getOrCreateProject hπ hR hseed scopePath).bind fun project => ?_
  refine (readOnly_projectContextBoard project.id).respects.bind fun board => ?_
  exact ((keeps_selectTx hπ.picker project.id board.id).mono hR).transaction.bind fun _ =>
    respects_pure _

theorem respects_createProjectContext (scopePath : String) :
    Respects R (createProjectContext scopePath) := by
  refine (readOnly_refuse _ _).respects.bind fun _ =>
    Respects.bind (Respects.transaction ?_) fun ids =>
    (readOnly_getProject ids.1).respects.bind fun _ =>
      (readOnly_getBoard ids.2).respects.bind fun _ => respects_pure _
  refine (respects_insertProjectWithBoard hπ hR hseed
    (keeps_rejectDuplicate (keeps_insertProjectRow hπ scopePath))).bind fun ids => ?_
  exact ((keeps_selectTx hπ.picker ids.1 ids.2).mono hR).bind fun _ => respects_pure ids

theorem respects_createBoard (projectId : Int) (name : String) :
    Respects R (createBoard projectId name) := by
  refine (readOnly_refuse _ _).respects.bind fun _ =>
    (readOnly_getProject projectId).respects.bind fun _ => ?_
  refine (readOnly_refuse _ _).respects.bind fun _ =>
    Respects.bind (Respects.transaction ?_) fun boardId =>
    (readOnly_getBoard boardId).respects
  refine ((keeps_rejectDuplicate (keeps_insertBoard hπ)).mono hR).bind fun boardId =>
    (hseed boardId).bind fun _ => ?_
  exact ((keeps_selectTx hπ.picker projectId boardId).mono hR).bind fun _ => respects_pure boardId

end Seeding

theorem siteBlind_work : SiteBlind Tables.work := ⟨fun _ _ _ => rfl, fun _ _ _ _ _ => rfl⟩

theorem columnBlind_work : ColumnBlind Tables.work := fun _ _ => rfl

/-! ## New cards -/

/-- The column a new card goes to: the named one, or the board's default one. -/
def chooseColumn (p : CardCreateParams) : StoreM Int :=
  match p.columnId with
  | some columnId => pure columnId
  | none => defaultColumnId (p.boardId.getD BOARD_ID)

def Db.newCardColumn (db : Db) (p : CardCreateParams) : Option Int :=
  p.columnId <|> (db.listColumns (p.boardId.getD BOARD_ID)).head?.map Column.id

theorem chooseColumn_ok {p : CardCreateParams} {columnId : Int} {db db' : Db} :
    chooseColumn p db = .ok columnId db' ↔ db.newCardColumn p = some columnId ∧ db = db' := by
  unfold chooseColumn Db.newCardColumn
  cases p.columnId with
  | some named => simp
  | none => simp

/-- The row of a card created at the end of the column. -/
def createdRow (conn : Conn) (p : CardCreateParams) (columnId : Int) (db : Db) : Int → Card :=
  newCard conn p (p.boardId.getD BOARD_ID) columnId (db.cards.endPosition columnId)

/-- Insert a card into the column, and place it. -/
def inserting (conn : Conn) (p : CardCreateParams) (place : Int → Int → StoreM Card)
    (columnId : Int) : StoreM Card := do
  let column ← requireColumn columnId
  refuse (column.boardId ≠ p.boardId.getD BOARD_ID) (.invalidState
    s!"column {columnId} belongs to board {column.boardId}, expected {p.boardId.getD BOARD_ID}")
  let db ← get
  let id ← insertCard (createdRow conn p columnId db)
  place columnId id

/-- A new card stays at the end, or is moved if a position was asked for. -/
def repositioning (conn : Conn) (position : Option Int) (columnId id : Int) : StoreM Card :=
  match position with
  | some position => moveCard conn id columnId (some position) >>= fun _ => requireCard id
  | none => requireCard id

theorem createCard_eq (conn : Conn) (p : CardCreateParams) : createCard conn p = (do
    let _ ← getBoard (p.boardId.getD BOARD_ID)
    let columnId ← chooseColumn p
    inserting conn p (repositioning conn p.position) columnId) := by
  unfold createCard chooseColumn
  cases p.columnId <;> cases p.position <;> rfl

theorem readOnly_chooseColumn (p : CardCreateParams) : ReadOnly (chooseColumn p) := by
  unfold chooseColumn
  split
  · exact readOnly_pure _
  · exact readOnly_defaultColumnId _

theorem respects_createCard_of {R : Db → Db → Prop} [Std.Refl R] [IsTrans Db R] {conn : Conn}
    {p : CardCreateParams}
    (hinsert : ∀ columnId position,
      Respects R (insertCard (newCard conn p (p.boardId.getD BOARD_ID) columnId position)))
    (hmove : ∀ id columnId position, Respects R (moveCard conn id columnId position)) :
    Respects R (createCard conn p) := by
  rw [createCard_eq]
  refine (readOnly_getBoard _).respects.bind fun _ =>
    (readOnly_chooseColumn p).respects.bind fun columnId => ?_
  refine (readOnly_requireColumn columnId).respects.bind fun _ =>
    (readOnly_refuse _ _).respects.bind fun _ => ?_
  refine readOnly_get.respects.bind fun db => (hinsert columnId _).bind fun id => ?_
  cases p.position with
  | none => exact (readOnly_requireCard id).respects
  | some pos => exact (hmove id columnId _).bind fun _ => (readOnly_requireCard id).respects

end HerdrBoard.Core
