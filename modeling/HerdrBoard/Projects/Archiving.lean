import HerdrBoard.Projects.Selecting
import HerdrBoard.Core.Lemmas.Sites

/-!
# Archiving boards and projects

When archiving a board or a project moves the selection, and what it leaves the other projects.
-/

open Lib HerdrBoard.Core

namespace HerdrBoard.Projects

variable {db db' : Db} {conn : Conn} {board : Board} {project : Project}

/-! ## What the statements commit -/

def archiveBoard (t : Tables) (conn : Conn) (boardId : Int) (archived : Bool) : Tables :=
  { t with
    boards := t.boards.update (fun b => b.id == boardId)
      (fun b => { b with archivedAt := if archived then some conn.now else none }) fun _ => rfl }

def archiveProject (t : Tables) (conn : Conn) (projectId : Int) (archived : Bool) : Tables :=
  { t with
    projects := t.projects.update (fun p => p.id == projectId)
      (fun p => { p with archivedAt := if archived then some conn.now else none }) fun _ => rfl }

theorem mem_archiveBoard {t : Tables} {boardId : Int} {archived : Bool} {r : Board} :
    r ∈ (archiveBoard t conn boardId archived).boards ↔
      ∃ b ∈ t.boards, (if b.id == boardId then
        { b with archivedAt := if archived then some conn.now else none } else b) = r := by
  simp [archiveBoard]

theorem mem_archiveProject {t : Tables} {projectId : Int} {archived : Bool} {r : Project} :
    r ∈ (archiveProject t conn projectId archived).projects ↔
      ∃ p ∈ t.projects, (if p.id == projectId then
        { p with archivedAt := if archived then some conn.now else none } else p) = r := by
  simp [archiveProject]

theorem boardIs_archiveBoard {t : Tables} {b P boardId : Int} {archived a : Bool} :
    (archiveBoard t conn boardId archived).BoardIs b P a ↔
      ∃ a₀, t.BoardIs b P a₀ ∧ (if b = boardId then archived else a₀) = a := by
  constructor
  · intro h
    obtain ⟨r', hr', hid, hproject, rfl⟩ := Tables.boardIs_iff.mp h
    obtain ⟨r, hr, rfl⟩ := mem_archiveBoard.mp hr'
    refine ⟨r.archivedAt.isSome, Tables.boardIs_iff.mpr ⟨r, hr, ?_, ?_, rfl⟩, ?_⟩
    all_goals
      revert hid hproject
      by_cases heq : r.id = boardId <;> cases archived <;> simp [heq] <;> omega
  · rintro ⟨a₀, h, rfl⟩
    obtain ⟨r, hr, rfl, rfl, rfl⟩ := Tables.boardIs_iff.mp h
    refine Tables.boardIs_iff.mpr ⟨_, mem_archiveBoard.mpr ⟨r, hr, rfl⟩, ?_⟩
    by_cases heq : r.id = boardId <;> cases archived <;> simp [heq]

theorem projectIs_archiveProject {t : Tables} {P projectId : Int} {archived a : Bool} :
    (archiveProject t conn projectId archived).ProjectIs P a ↔
      ∃ a₀, t.ProjectIs P a₀ ∧ (if P = projectId then archived else a₀) = a := by
  constructor
  · intro h
    obtain ⟨r', hr', hid, rfl⟩ := Tables.projectIs_iff.mp h
    obtain ⟨r, hr, rfl⟩ := mem_archiveProject.mp hr'
    refine ⟨r.archivedAt.isSome, Tables.projectIs_iff.mpr ⟨r, hr, ?_, rfl⟩, ?_⟩
    all_goals
      revert hid
      by_cases heq : r.id = projectId <;> cases archived <;> simp [heq] <;> omega
  · rintro ⟨a₀, h, rfl⟩
    obtain ⟨r, hr, rfl, rfl⟩ := Tables.projectIs_iff.mp h
    refine Tables.projectIs_iff.mpr ⟨_, mem_archiveProject.mpr ⟨r, hr, rfl⟩, ?_⟩
    by_cases heq : r.id = projectId <;> cases archived <;> simp [heq]

@[simp] theorem hasBoard_archiveBoard (t : Tables) (conn : Conn) (boardId : Int) (archived : Bool) :
    (archiveBoard t conn boardId archived).hasBoard = t.hasBoard := by
  funext id
  simp [archiveBoard, Tables.hasBoard, Table.find?_update]

@[simp] theorem hasProject_archiveProject (t : Tables) (conn : Conn) (projectId : Int)
    (archived : Bool) : (archiveProject t conn projectId archived).hasProject = t.hasProject := by
  funext id
  simp [archiveProject, Tables.hasProject, Table.find?_update]

theorem violation_archiveBoard (db : Db) (conn : Conn) (boardId : Int) (archived : Bool) :
    (archiveBoard db.toTables conn boardId archived).violation = none := by
  have hrows : ∀ (f : Board → Board) (b : Board),
      (∀ b, (f b).projectId = b.projectId ∧ (f b).name = b.name) →
      (if b.id == boardId then f b else b).projectId = b.projectId ∧
        (if b.id == boardId then f b else b).name = b.name := by
    intro f b hf
    split
    · exact hf b
    · exact ⟨rfl, rfl⟩
  have hboards := hrows (fun b => { b with archivedAt := if archived then some conn.now else none })
  have hsame : (archiveBoard db.toTables conn boardId archived).violation =
      db.toTables.violation := by
    refine Tables.violation_congr Iff.rfl ?_ ?_
    · simp only [Tables.UniqueOk, archiveBoard, Table.update, List.pairwise_map,
        (hboards _ fun _ => ⟨rfl, rfl⟩).1, (hboards _ fun _ => ⟨rfl, rfl⟩).2]
    · simp only [Tables.ForeignKeysOk, hasBoard_archiveBoard]
      simp only [archiveBoard, Table.update, List.forall_mem_map, (hboards _ fun _ => ⟨rfl, rfl⟩).1]
      rfl
  exact hsame.trans db.sound

theorem violation_archiveProject (db : Db) (conn : Conn) (projectId : Int) (archived : Bool) :
    (archiveProject db.toTables conn projectId archived).violation = none := by
  have hscope : ∀ p : Project, (if p.id == projectId then
      { p with archivedAt := if archived then some conn.now else none } else p).scopePath =
        p.scopePath := by
    intro p
    split <;> rfl
  have hsame : (archiveProject db.toTables conn projectId archived).violation =
      db.toTables.violation := by
    refine Tables.violation_congr Iff.rfl ?_ ?_
    · simp only [Tables.UniqueOk, archiveProject, Table.update, List.pairwise_map, hscope]
    · simp only [Tables.ForeignKeysOk, hasProject_archiveProject]
      rfl
  exact hsame.trans db.sound

/-! ## The two operations -/

theorem getBoard_run {id : Int} (h : db.board? id = some board) : getBoard id db = .ok board db :=
  getBoard_ok.mpr ⟨h, rfl⟩

theorem requireProjectByScope_run {scopePath : String}
    (h : db.projectByScope scopePath = some project) :
    requireProjectByScope scopePath db = .ok project db :=
  bind_ok.mpr ⟨db, db, rfl, okOr_ok.mpr ⟨h, rfl⟩⟩

/-- What decides whether the board is archived or restored. -/
def boardDecision (db : Db) (board : Board) (archived : Bool) : Except BoardArchiveRejection Unit :=
  decideBoardArchive board.id board.archivedAt.isSome (db.boardHasOpenRun board.id) archived

def projectDecision (db : Db) (project : Project) (archived : Bool) :
    Except ProjectArchiveRejection Unit :=
  decideProjectArchive project.scopePath.isNone project.archivedAt.isSome
    (db.activeBoards project.id).length (db.projectHasOpenRun project.id) archived

/-- The operation leaves the store as it was: nothing changes, or it is refused. -/
def BoardStays (db : Db) (board : Board) (archived : Bool) : Prop :=
  board.archivedAt.isSome = archived ∨ boardDecision db board archived ≠ .ok ()

def ProjectStays (db : Db) (project : Project) (archived : Bool) : Prop :=
  project.archivedAt.isSome = archived ∨ projectDecision db project archived ≠ .ok ()

theorem boardStays_iff {archived : Bool} : BoardStays db board archived ↔
    board.archivedAt.isSome = archived ∨
    (archived = true ∧ db.boardHasOpenRun board.id = true) := by
  unfold BoardStays boardDecision decideBoardArchive
  by_cases hsame : board.archivedAt.isSome = archived <;>
    cases archived <;> cases db.boardHasOpenRun board.id <;> simp_all

theorem boardIs_iff_mem_activeBoards {P : Int} :
    (∃ b, db.BoardIs b P false) ↔ db.activeBoards P ≠ [] := by
  constructor
  · rintro ⟨b, hb⟩ hnil
    obtain ⟨r, hr, -, hproject, hactive⟩ := Tables.boardIs_iff.mp hb
    have hmem : r ∈ db.activeBoards P := mem_activeBoards.mpr ⟨hr, hproject, by simpa using hactive⟩
    rw [hnil] at hmem
    cases hmem
  · intro h
    obtain ⟨r, hr⟩ := List.exists_mem_of_ne_nil _ h
    obtain ⟨hmem, hproject, hactive⟩ := mem_activeBoards.mp hr
    exact ⟨r.id, Tables.boardIs_iff.mpr ⟨r, hmem, rfl, hproject, by simp [hactive]⟩⟩

/-- A project is archived only without active boards. -/
theorem activeBoards_of_archives (h : ¬ProjectStays db project true) :
    db.activeBoards project.id = [] := by
  refine List.eq_nil_of_length_eq_zero (Nat.eq_zero_of_not_pos fun hpos => h (.inr ?_))
  have hactive : project.archivedAt.isSome ≠ true := fun hsome => h (.inl hsome)
  unfold projectDecision decideProjectArchive
  split_ifs <;> simp_all

/-- The transaction of `set_board_archived`. -/
def archiveBoardTx (conn : Conn) (board : Board) (boardId : Int) (archived : Bool) :
    StoreM Unit := do
  let db ← get
  fromExcept ((decideBoardArchive boardId board.archivedAt.isSome (db.boardHasOpenRun boardId)
    archived).mapError fun e => .invalidState e.message)
  exec fun t => archiveBoard t conn boardId archived
  if archived then reselectAfterArchive conn board.projectId boardId else pure ()

/-- The transaction of `set_project_archived`. -/
def archiveProjectTx (conn : Conn) (project : Project) (archived : Bool) : StoreM Unit := do
  let db ← get
  fromExcept ((decideProjectArchive project.scopePath.isNone project.archivedAt.isSome
    (db.activeBoards project.id).length (db.projectHasOpenRun project.id) archived).mapError
      fun e => .invalidState e.message)
  exec fun t => archiveProject t conn project.id archived
  if archived ∧ db.selection = some project.id then selectFallbackProject conn else pure ()

theorem setBoardArchived_eq {boardId : Int} (hb : db.board? boardId = some board)
    (archived : Bool) : finalState (setBoardArchived conn boardId archived db) =
      if board.archivedAt.isSome = archived then db
      else finalState (transaction (archiveBoardTx conn board boardId archived) db) := by
  have hrun : finalState (setBoardArchived conn boardId archived db) =
      finalState ((if board.archivedAt.isSome = archived then pure board else do
        transaction (archiveBoardTx conn board boardId archived)
        getBoard boardId : StoreM Board) db) := by
    unfold setBoardArchived
    rw [run_bind, getBoard_run hb]
    rfl
  rw [hrun]
  split
  · rfl
  · exact finalState_bind_readOnly (fun _ => readOnly_getBoard boardId) db

theorem setProjectArchived_eq {scopePath : String} (hp : db.projectByScope scopePath = some project)
    (archived : Bool) : finalState (setProjectArchived conn scopePath archived db) =
      if project.archivedAt.isSome = archived then db
      else finalState (transaction (archiveProjectTx conn project archived) db) := by
  have hrun : finalState (setProjectArchived conn scopePath archived db) =
      finalState ((if project.archivedAt.isSome = archived then pure project else do
        transaction (archiveProjectTx conn project archived)
        getProject project.id : StoreM Project) db) := by
    unfold setProjectArchived
    rw [run_bind, requireProjectByScope_run hp]
    rfl
  rw [hrun]
  split
  · rfl
  · exact finalState_bind_readOnly (fun _ => readOnly_getProject project.id) db

theorem finalState_transaction_of_error {α : Type} {x : StoreM α} {e : Error} {db₁ : Db}
    (h : x db = .error e db₁) : finalState (transaction x db) = db := by
  simp [transaction, h]

theorem finalState_transaction_of_ok {α : Type} {x : StoreM α} {a : α} (h : x db = .ok a db') :
    finalState (transaction x db) = db' := by
  simp [transaction, h]

theorem run_get {α : Type} (f : Db → StoreM α) (db : Db) : (get >>= f) db = f db db := rfl

theorem run_fromExcept_error {ε α β : Type} {r : Except ε α} {g : ε → Error}
    {f : α → StoreM β} {e : ε}
    (h : r = .error e) : (fromExcept (r.mapError g) >>= f) db = .error (g e) db := by
  subst h
  rfl

/-- Refused, or nothing to do. -/
theorem board_stays {archived : Bool} (hb : db.board? board.id = some board)
    (h : BoardStays db board archived) :
    finalState (setBoardArchived conn board.id archived db) = db := by
  rw [setBoardArchived_eq hb]
  split
  · rfl
  next hne =>
    have hrefused := h.resolve_left hne
    cases hdecide : boardDecision db board archived with
    | ok u => exact absurd hdecide hrefused
    | error e =>
        exact finalState_transaction_of_error ((run_get _ db).trans (run_fromExcept_error hdecide))

theorem project_stays {scopePath : String} {archived : Bool}
    (hp : db.projectByScope scopePath = some project) (h : ProjectStays db project archived) :
    finalState (setProjectArchived conn scopePath archived db) = db := by
  rw [setProjectArchived_eq hp]
  split
  · rfl
  next hne =>
    have hrefused := h.resolve_left hne
    cases hdecide : projectDecision db project archived with
    | ok u => exact absurd hdecide hrefused
    | error e =>
        exact finalState_transaction_of_error ((run_get _ db).trans (run_fromExcept_error hdecide))

theorem fromExcept_mapError {ε α : Type} {r : Except ε α} {g : ε → Error} {a : α}
    (h : r = .ok a) (db : Db) : (fromExcept (r.mapError g) : StoreM α) db = .ok a db := by
  subst h
  rfl

/-- The board is archived or restored, and the picker follows. -/
theorem board_archives (conn : Conn) {archived : Bool} (hb : db.board? board.id = some board)
    (h : ¬BoardStays db board archived) :
    ∃ db₁ : Db, db₁.toTables = archiveBoard db.toTables conn board.id archived ∧
      (finalState (setBoardArchived conn board.id archived db)).toTables = db₁.toTables.withPicker
        (if archived then reselected db₁ conn board.projectId board.id else db₁.picker) := by
  obtain ⟨hne, hdecide⟩ := not_or.mp h
  have hdecide : boardDecision db board archived = .ok () := not_not.mp hdecide
  obtain ⟨db₁, hdb₁⟩ : ∃ db₁ : Db, db₁.toTables = archiveBoard db.toTables conn board.id archived :=
    ⟨⟨_, violation_archiveBoard db conn board.id archived⟩, rfl⟩
  refine ⟨db₁, hdb₁, ?_⟩
  have hproject : db₁.hasProject board.projectId := by
    rw [hdb₁]
    exact db.foreignKeysOk.1 board (Table.mem_of_find? hb)
  have hwrites : Writes (if archived then reselectAfterArchive conn board.projectId board.id
      else pure ()) db₁
      (if archived then reselected db₁ conn board.projectId board.id else db₁.picker) := by
    split
    · exact writes_reselectAfterArchive conn hproject board.id
    · exact writes_pure
  obtain ⟨db', hrun, htab⟩ := hwrites
  have hbody : archiveBoardTx conn board board.id archived db = .ok () db' :=
    bind_ok.mpr ⟨db, db, rfl, bind_ok.mpr ⟨(), db, fromExcept_mapError hdecide db,
      bind_ok.mpr ⟨(), db₁, exec_ok.mpr hdb₁, hrun⟩⟩⟩
  rw [setBoardArchived_eq hb, if_neg hne, finalState_transaction_of_ok hbody, htab]

theorem project_archives (conn : Conn) {scopePath : String} {archived : Bool}
    (hp : db.projectByScope scopePath = some project) (h : ¬ProjectStays db project archived) :
    ∃ db₁ : Db, db₁.toTables = archiveProject db.toTables conn project.id archived ∧
      (finalState (setProjectArchived conn scopePath archived db)).toTables =
        db₁.toTables.withPicker
        (if archived ∧ db.selection = some project.id then fallbackContext db₁ conn db₁.picker
          else db₁.picker) := by
  obtain ⟨hne, hdecide⟩ := not_or.mp h
  have hdecide : projectDecision db project archived = .ok () := not_not.mp hdecide
  obtain ⟨db₁, hdb₁⟩ :
      ∃ db₁ : Db, db₁.toTables = archiveProject db.toTables conn project.id archived :=
    ⟨⟨_, violation_archiveProject db conn project.id archived⟩, rfl⟩
  refine ⟨db₁, hdb₁, ?_⟩
  have hwrites : Writes (if archived ∧
      db.selection = some project.id then selectFallbackProject conn else pure ()) db₁
      (if archived ∧ db.selection = some project.id then fallbackContext db₁ conn db₁.picker
        else db₁.picker) := by
    split
    · exact writes_selectFallbackProject db₁ conn
    · exact writes_pure
  obtain ⟨db', hrun, htab⟩ := hwrites
  have hbody : archiveProjectTx conn project archived db = .ok () db' :=
    bind_ok.mpr ⟨db, db, rfl, bind_ok.mpr ⟨(), db, fromExcept_mapError hdecide db,
      bind_ok.mpr ⟨(), db₁, exec_ok.mpr hdb₁, hrun⟩⟩⟩
  rw [setProjectArchived_eq hp, if_neg hne, finalState_transaction_of_ok hbody, htab]

end HerdrBoard.Projects
