import HerdrBoard.Projects.Requests

/-!
# Archived projects

An archived project has no active board, in every history that restores no board inside an
archived project. -/

open Lib HerdrBoard.Core HerdrBoard.Daemon

namespace HerdrBoard.Projects

variable {t t' : Tables} {P b : Int}

/-- No board of an archived project is active. -/
def Hides (t : Tables) : Prop := ∀ P b, t.ProjectIs P true → ¬t.BoardIs b P false

theorem Enters.hides (h : Enters t t') (hides : Hides t) : Hides t' := by
  intro P b hP hb
  have hold : t.ProjectIs P true := (h.new_projects hP).resolve_right (by simp)
  cases h.new_boards hb with
  | inl hb => exact hides P b hold hb
  | inr hactive => cases hP.unique hactive

@[simp] theorem sites_withPicker (t : Tables) (p : Picker) : (t.withPicker p).sites = t.sites := rfl

theorem hides_congr (h : t'.sites = t.sites) : Hides t' ↔ Hides t := by
  simp only [Hides, Tables.ProjectIs, Tables.BoardIs, h]

/-! ## Archiving and restoring -/

theorem hides_archiveBoard (hides : Hides t) (conn : Conn) (boardId : Int) :
    Hides (archiveBoard t conn boardId true) := by
  intro P b hP hb
  obtain ⟨a, hb, ha⟩ := boardIs_archiveBoard.mp hb
  have ha : a = false := by
    split at ha
    · cases ha
    · exact ha
  exact hides P b hP (ha ▸ hb)

theorem hides_restoreBoard {board : Board} (hides : Hides t) (conn : Conn)
    (hboard : board ∈ t.boards) (hproject : ¬t.ProjectIs board.projectId true) :
    Hides (archiveBoard t conn board.id false) := by
  intro P b hP hb
  obtain ⟨a, hb, ha⟩ := boardIs_archiveBoard.mp hb
  by_cases heq : b = board.id
  · have hself : t.BoardIs board.id board.projectId board.archivedAt.isSome :=
      Tables.boardIs_iff.mpr ⟨board, hboard, rfl, rfl, rfl⟩
    obtain ⟨rfl, -⟩ := (heq ▸ hb).unique hself
    exact hproject hP
  · rw [if_neg heq] at ha
    exact hides P b hP (ha ▸ hb)

theorem hides_archiveProject (hides : Hides t) (conn : Conn) (projectId : Int) (archived : Bool)
    (hempty : archived = true → ∀ b, ¬t.BoardIs b projectId false) :
    Hides (archiveProject t conn projectId archived) := by
  intro P b hP hb
  obtain ⟨a, hP, ha⟩ := projectIs_archiveProject.mp hP
  by_cases heq : P = projectId
  · rw [if_pos heq] at ha
    exact hempty ha b (heq ▸ hb)
  · rw [if_neg heq] at ha
    exact hides P b (ha ▸ hP) hb

variable {db db' : Db} {conn : Conn}

/-- A restored board is not inside an archived project. -/
def RestoresUnderActive (db : Db) (r : Conn × PlaceRequest) : Prop :=
  ∀ b board, r.2 = .boardArchive b false → db.board? b = some board →
    ¬db.ProjectIs board.projectId true

theorem hides_setBoardArchived (hides : Hides db.toTables) (conn : Conn) (archived : Bool)
    (hrestore : ∀ board, archived = false → db.board? b = some board →
      ¬db.ProjectIs board.projectId true) :
    Hides (finalState (setBoardArchived conn b archived db)).toTables := by
  cases hb : db.board? b with
  | none =>
      have hsame : finalState (setBoardArchived conn b archived db) = db :=
        (readOnly_getBoard b).finalState_bind_of_fails fun board h => by simp [hb] at h
      exact hsame.symm ▸ hides
  | some board =>
      cases (show board.id = b from Table.key_of_find? hb)
      by_cases hstays : BoardStays db board archived
      · rw [board_stays hb hstays]
        exact hides
      · obtain ⟨db₁, h₁, hfinal⟩ := board_archives conn hb hstays
        rw [hfinal, hides_congr (sites_withPicker _ _), h₁]
        cases archived with
        | true => exact hides_archiveBoard hides conn board.id
        | false =>
            exact hides_restoreBoard hides conn (Table.mem_of_find? hb) (hrestore board rfl hb)

theorem hides_setProjectArchived (hides : Hides db.toTables) (conn : Conn) (scopePath : String)
    (archived : Bool) :
    Hides (finalState (setProjectArchived conn scopePath archived db)).toTables := by
  cases hp : db.projectByScope scopePath with
  | none =>
      have hsame : finalState (setProjectArchived conn scopePath archived db) = db :=
        (readOnly_requireProjectByScope scopePath).finalState_bind_of_fails fun project h => by
          simp [requireProjectByScope, hp] at h
      exact hsame.symm ▸ hides
  | some project =>
      by_cases hstays : ProjectStays db project archived
      · rw [project_stays hp hstays]
        exact hides
      · obtain ⟨db₁, h₁, hfinal⟩ := project_archives conn hp hstays
        rw [hfinal, hides_congr (sites_withPicker _ _), h₁]
        refine hides_archiveProject hides conn project.id archived ?_
        rintro rfl b hb
        exact boardIs_iff_mem_activeBoards.mp ⟨b, hb⟩ (activeBoards_of_archives hstays)

/-! ## Every order of requests -/

theorem enters_answered {α β : Type} {x : StoreM α} {answer : α → β} (h : Respects EntersDb x) :
    Respects EntersDb (do let a ← x; pure (answer a)) := h.bind fun _ => respects_pure _

theorem hides_place {db : Db} (hides : Hides db.toTables) (r : Conn × PlaceRequest)
    (hrestore : RestoresUnderActive db r) :
    Hides (finalState (servePlace r.1 r.2 db)).toTables := by
  obtain ⟨conn, r⟩ := r
  have henters {x : StoreM (Option (Int × Int))} (h : Respects EntersDb x) :
      Hides (finalState (x db)).toTables :=
    Enters.hides (h db) hides
  cases r with
  | projectOpen scopePath =>
      exact henters (enters_answered
        ((readOnly_projectOpenCheck scopePath).respects.bind fun _ =>
          enters_openProjectContext scopePath))
  | projectCreate validated scopePath =>
      exact henters (enters_answered
        ((readOnly_fromExcept validated).respects.bind fun _ =>
          enters_createProjectContext scopePath))
  | projectSelect scopePath boardId =>
      exact henters (enters_answered
        ((readOnly_projectSelectCheck scopePath boardId).respects.bind fun _ =>
          enters_selectProjectByScope scopePath boardId))
  | projectArchive scopePath archived =>
      have hfinal := hides_setProjectArchived hides conn scopePath archived
      rw [← finalState_bind_readOnly (fun _ => readOnly_pure _)] at hfinal
      exact hfinal
  | boardOpen scopePath => exact henters (enters_answered (enters_openBoard scopePath))
  | boardCreate projectId name =>
      exact henters (enters_answered (enters_createBoard projectId name))
  | boardSelect boardId =>
      exact henters (enters_answered
        ((readOnly_boardSelectCheck boardId).respects.bind fun _ => enters_selectBoard boardId))
  | boardArchive boardId archived =>
      have hfinal := hides_setBoardArchived hides conn archived fun board ha =>
        hrestore boardId board (by rw [ha])
      rw [← finalState_bind_readOnly (fun _ => readOnly_pure _)] at hfinal
      exact hfinal

theorem hides_fresh : Hides Db.fresh.toTables := by
  intro P b hP
  obtain ⟨p, hp, -, harchived⟩ := Tables.projectIs_iff.mp hP
  have hactive : ∀ p ∈ Db.fresh.projects.rows, p.archivedAt.isSome = false := by decide
  cases (hactive p hp).symm.trans harchived

/-- Work that a board takes: a new card, a card moved to it, a run of one of its cards. -/
inductive AcceptsWork (db : Db) (b : Int) : Prop
  | create (p : CardCreateParams) (hb : p.boardId.getD BOARD_ID = b)
      (h : createGuard p db = .ok () db)
  | move (card : Card) (columnId : Int) (target : Column) (hb : target.boardId = b)
      (h : moveTarget card columnId db = .ok target db)
  | run (card : Card) (columnId : Int) (hb : card.boardId = b)
      (h : checkNotArchived card columnId db = .ok () db)

/-- The archived project's boards are all archived and take no work. -/
structure Hidden (db : Db) (project : Project) : Prop where
  boards : db.activeBoards project.id = []
  work : ∀ board ∈ db.boards, board.projectId = project.id → ¬AcceptsWork db board.id

/-- A board that takes work is active. -/
theorem AcceptsWork.active {board : Board} (h : AcceptsWork db board.id)
    (hboard : db.board? board.id = some board) : board.archivedAt = none := by
  cases h with
  | create p hb h =>
      obtain ⟨_, _, hget, h⟩ := bind_ok.mp h
      obtain ⟨rfl, rfl⟩ := get_ok.mp hget
      simp only [hb, hboard] at h
      obtain ⟨_, _, hrefuse, -⟩ := bind_ok.mp h
      simpa using (refuse_ok.mp hrefuse).1
  | move card columnId target hb h =>
      simp only [moveTarget, bind_ok, refuse_ok, getBoard_ok, getProject_ok, requireColumn_ok,
        pure_ok] at h
      obtain ⟨_, _, ⟨-, rfl⟩, _, _, ⟨-, rfl⟩, _, _, ⟨-, rfl⟩, column, _, ⟨-, rfl⟩, dest, _,
        ⟨hdest, rfl⟩, _, _, ⟨hactive, rfl⟩, _, _, ⟨-, rfl⟩, _, _, ⟨-, rfl⟩, rfl, -⟩ := h
      rw [hb, hboard] at hdest
      cases hdest
      simpa using hactive
  | run card columnId hb h =>
      simp only [checkNotArchived, bind_ok, getBoard_ok, refuse_ok] at h
      obtain ⟨source, _, ⟨hsource, rfl⟩, _, _, ⟨hactive, rfl⟩, -⟩ := h
      rw [hb, hboard] at hsource
      cases hsource
      simpa using hactive

theorem hidden_of_hides {project : Project} (hides : Hides db.toTables)
    (hproject : project ∈ db.projects)
    (harchived : project.archivedAt.isSome) : Hidden db project := by
  have hP : db.ProjectIs project.id true :=
    Tables.projectIs_iff.mpr ⟨project, hproject, rfl, harchived⟩
  have hnone : db.activeBoards project.id = [] := by
    by_contra hne
    obtain ⟨b, hb⟩ := boardIs_iff_mem_activeBoards.mpr hne
    exact hides _ b hP hb
  refine ⟨hnone, fun board hboard hmember hwork => ?_⟩
  have hactive := hwork.active (Table.find?_key hboard)
  have hmem : board ∈ db.activeBoards project.id := mem_activeBoards.mpr ⟨hboard, hmember, hactive⟩
  rw [hnone] at hmem
  cases hmem

theorem not_hidden_of_not_hides (h : ¬Hides db.toTables) :
    ∃ project ∈ db.projects, project.archivedAt.isSome ∧ ¬Hidden db project := by
  simp only [Hides, not_forall, not_not] at h
  obtain ⟨P, b, hP, hb⟩ := h
  obtain ⟨project, hproject, rfl, harchived⟩ := Tables.projectIs_iff.mp hP
  exact ⟨project, hproject, harchived,
    fun hidden => boardIs_iff_mem_activeBoards.mp ⟨b, hb⟩ hidden.boards⟩

/-- Restoring a board inside an archived project leaves it active there. -/
theorem not_hides_restored (conn : Conn) {board : Board} (hb : db.board? board.id = some board)
    (hP : db.ProjectIs board.projectId true) :
    ¬Hides (finalState (setBoardArchived conn board.id false db)).toTables := by
  have hself : db.BoardIs board.id board.projectId board.archivedAt.isSome :=
    Tables.boardIs_iff.mpr ⟨board, Table.mem_of_find? hb, rfl, rfl, rfl⟩
  intro hides
  by_cases hstays : BoardStays db board false
  · rw [board_stays hb hstays] at hides
    have hactive : board.archivedAt.isSome = false :=
      (boardStays_iff.mp hstays).resolve_right (by simp)
    exact hides _ _ hP (hactive ▸ hself)
  · obtain ⟨db₁, h₁, hfinal⟩ := board_archives conn hb hstays
    rw [hfinal, hides_congr (sites_withPicker _ _), h₁] at hides
    exact hides _ _ hP (boardIs_archiveBoard.mpr ⟨_, hself, if_pos rfl⟩)

/-- In every history that restores no board inside an archived project, archived projects are
hidden; a restore inside an archived project leaves one that is not. -/
theorem archived_projects_hidden_iff (db : Db) :
    (places.ReachableBy RestoresUnderActive db →
      ∀ project ∈ db.projects, project.archivedAt.isSome → Hidden db project) ∧
    ∀ r db', places.step db r db' → ¬RestoresUnderActive db r →
      ∃ project ∈ db'.projects, project.archivedAt.isSome ∧ ¬Hidden db' project := by
  constructor
  · intro h
    have hides : Hides db.toTables := by
      refine h.invariant (I := fun db => Hides db.toTables) ?_ ?_
      · rintro db rfl
        exact hides_fresh
      · rintro db r db' hides hrestore rfl
        exact hides_place hides r hrestore
    exact fun project hproject => hidden_of_hides hides hproject
  · rintro ⟨conn, r⟩ db' rfl hrestore
    simp only [RestoresUnderActive, not_forall, not_not] at hrestore
    obtain ⟨b, board, rfl, hb, hP⟩ := hrestore
    cases (show board.id = b from Table.key_of_find? hb)
    have hrestored := not_hides_restored conn hb hP
    rw [← finalState_bind_readOnly (fun _ => readOnly_pure _)] at hrestored
    exact not_hidden_of_not_hides hrestored

/-- A project archived with its board, whose board is then restored. -/
def restoredInside : List PlaceRequest :=
  [.projectCreate (.ok ()) "/a", .boardArchive 2 true, .projectArchive "/a" true,
    .boardArchive 2 false]

/-- The store after some requests. -/
def served (conn : Conn) (db : Db) (requests : List PlaceRequest) : Db :=
  requests.foldl (fun db r => finalState (servePlace conn r db)) db

theorem reachable_served {db : Db} (conn : Conn) (h : places.Reachable db)
    (requests : List PlaceRequest) : places.Reachable (served conn db requests) := by
  induction requests generalizing db with
  | nil => exact h
  | cons r requests ih => exact ih (h.step trivial (l := (conn, r)) rfl)

/-- A project is archived with its board, and a board of another project is restored. -/
theorem archived_projects_hidden_iff_outside :
    ∃ db, db.projects.rows.map (fun p => p.archivedAt.isSome) = [false, true] ∧
      ∀ project ∈ db.projects, project.archivedAt.isSome → Hidden db project := by
  let conn : Conn := { now := "", toLowercase := id }
  have hother {db : Db} (r : PlaceRequest) (hr : ∀ b, r ≠ .boardArchive b false)
      (h : places.ReachableBy RestoresUnderActive db) :
      places.ReachableBy RestoresUnderActive (finalState (servePlace conn r db)) :=
    h.step (l := (conn, r)) (fun b _ hrestore => absurd hrestore (hr b)) rfl
  have harchived := hother (.boardArchive 1 true) (by simp) <|
    hother (.projectArchive "/a" true) (by simp) <|
    hother (.boardArchive 2 true) (by simp) <|
      hother (.projectCreate (.ok ()) "/a") (by simp) (.init rfl)
  generalize hdb : finalState _ = db at harchived
  have hrestores : RestoresUnderActive db (conn, .boardArchive 1 false) := by
    rintro b board hrestore hboard
    cases hrestore
    have hproject : (db.board? 1).map Board.projectId = some 1 := by
      rw [← hdb]
      decide
    rw [hboard] at hproject
    rw [show board.projectId = 1 from Option.some.inj hproject, ← hdb]
    show (1, true) ∉ _
    decide
  refine ⟨_, ?_, (archived_projects_hidden_iff _).1 (harchived.step hrestores rfl)⟩
  rw [← hdb]
  decide

theorem archived_project_with_active_board :
    ∃ db, places.Reachable db ∧ ∃ project ∈ db.projects, project.archivedAt.isSome ∧
      db.activeBoards project.id ≠ [] := by
  let db := served { now := "", toLowercase := id } Db.fresh restoredInside
  have hproject : db.project? 2 = some ⟨2, some "/a", some ""⟩ := by decide
  have hboard : (db.activeBoards 2).map Board.id = [2] := by decide
  refine ⟨db, reachable_served _ (.init rfl) _, _, Table.mem_of_find? hproject, rfl, fun hnil => ?_⟩
  rw [show db.activeBoards 2 = [] from hnil] at hboard
  cases hboard

end HerdrBoard.Projects
