import HerdrBoard.Projects.Context
import HerdrBoard.Core.Lemmas.Sites

/-!
# What project and board requests keep

Every request keeps the context valid, and one that selects leaves what it answers selected.
-/

open Lib HerdrBoard.Core HerdrBoard.Daemon

namespace HerdrBoard.Projects

variable {db db' db₁ : Db} {conn : Conn} {P b : Int} {board : Board} {project : Project}

/-! ## Projects and boards that come in -/

/-- Rows come in, and the picker stays as it is. -/
structure Grows (db db' : Db) : Prop where
  picker : db'.picker = db.picker
  projects : ∀ p ∈ db.projects, p ∈ db'.projects
  boards : ∀ b ∈ db.boards, b ∈ db'.boards

theorem Grows.trans {db'' : Db} (h : Grows db db') (h' : Grows db' db'') : Grows db db'' :=
  ⟨h'.picker.trans h.picker, fun p hp => h'.projects p (h.projects p hp),
    fun b hb => h'.boards b (h.boards b hb)⟩

theorem Grows.activeProject (h : Grows db db') (hP : ActiveProject db.toTables P) :
    ActiveProject db'.toTables P := by
  obtain ⟨p, hp, hid, hactive⟩ := hP
  exact ⟨p, h.projects p hp, hid, hactive⟩

theorem Grows.activeBoard (h : Grows db db') (hb : ActiveBoard db.toTables P b) :
    ActiveBoard db'.toTables P b := by
  obtain ⟨r, hr, hid, hproject, hactive⟩ := hb
  exact ⟨r, h.boards r hr, hid, hproject, hactive⟩

theorem Grows.contextOk (h : Grows db db') (hok : ContextOk db.toTables) : ContextOk db'.toTables :=
  hok.mono h.picker (fun b hb => ⟨b, h.boards b hb, rfl, rfl⟩) fun s hs =>
    ⟨h.activeProject (hok.remembered s hs).1, h.activeBoard (hok.remembered s hs).2⟩

theorem insertProjectRow_ok {scopePath : String} (h : insertProjectRow scopePath db = .ok P db') :
    Grows db db' ∧ ActiveProject db'.toTables P := by
  simp only [insertProjectRow, insertProject, bind_ok, get_ok, exec_ok, pure_ok] at h
  obtain ⟨_, _, ⟨rfl, rfl⟩, _, _, htab, rfl, rfl⟩ := h
  refine ⟨⟨by rw [htab]; rfl, fun p hp => ?_, fun b hb => ?_⟩, ?_⟩
  · rw [htab]
    exact Table.mem_insert.mpr (.inl hp)
  · rwa [htab]
  · rw [htab]
    exact ⟨_, Table.mem_insert.mpr (.inr rfl), rfl, rfl⟩

theorem insertBoard_ok {name : String}
    (h : insertBoard (fun id => { id, projectId := P, name, archivedAt := none })
    (fun _ => rfl) db = .ok b db') : Grows db db' ∧ ActiveBoard db'.toTables P b := by
  simp only [insertBoard, bind_ok, get_ok, exec_ok, pure_ok] at h
  obtain ⟨_, _, ⟨rfl, rfl⟩, _, _, htab, rfl, rfl⟩ := h
  refine ⟨⟨by rw [htab]; rfl, fun p hp => ?_, fun r hr => ?_⟩, ?_⟩
  · rwa [htab]
  · rw [htab]
    exact Table.mem_insert.mpr (.inl hr)
  · rw [htab]
    exact ⟨_, Table.mem_insert.mpr (.inr rfl), rfl, rfl, rfl⟩

theorem grows_seedTodoTx (h : seedTodoTx b db = .ok () db') : Grows db db' := by
  have hkeeps : KeepsTables (fun t : Tables => (t.picker, t.projects, t.boards)) (seedTodoTx b) :=
    keeps_seedTodoTx (fun _ _ => rfl) b
  have hsame := hkeeps.ok h
  simp only [SameBy, Prod.mk.injEq] at hsame
  exact ⟨hsame.1, fun p hp => hsame.2.1 ▸ hp, fun b hb => hsame.2.2 ▸ hb⟩

theorem insertProjectWithBoard_ok {insertRow : StoreM Int} {ids : Int × Int}
    (hrow : ∀ P db₁, insertRow db = .ok P db₁ → Grows db db₁ ∧ ActiveProject db₁.toTables P)
    (h : insertProjectWithBoard insertRow db = .ok ids db') :
    Grows db db' ∧ ActiveProject db'.toTables ids.1 ∧ ActiveBoard db'.toTables ids.1 ids.2 := by
  obtain ⟨P, db₁, h₁, h⟩ := bind_ok.mp h
  obtain ⟨b, db₂, h₂, h⟩ := bind_ok.mp h
  obtain ⟨_, db₃, h₃, h⟩ := bind_ok.mp h
  obtain ⟨rfl, rfl⟩ := pure_ok.mp h
  obtain ⟨hgrows₁, hproject⟩ := hrow P db₁ h₁
  obtain ⟨hgrows₂, hboard⟩ := insertBoard_ok h₂
  have hgrows₃ := grows_seedTodoTx h₃
  exact ⟨hgrows₁.trans (hgrows₂.trans hgrows₃), (hgrows₂.trans hgrows₃).activeProject hproject,
    hgrows₃.activeBoard hboard⟩

/-! ## Selecting -/

theorem selectTx_ok (hP : db.hasProject P) (hb : db.hasBoard b) (h : selectTx P b db = .ok () db') :
    db'.toTables = db.toTables.withPicker (db.picker.choose P b) := by
  obtain ⟨db₁, hrun, htab⟩ := writes_selectTx hP hb
  rw [hrun] at h
  cases h
  exact htab

/-- The project and its board are selected. -/
structure Selects (db : Db) (P b : Int) : Prop where
  selected : db.selection = some P
  board : db.selectedBoardIdFor P = some b

theorem selects_choose (htab : db'.toTables = db.toTables.withPicker (db.picker.choose P b)) :
    Selects db' P b := by
  have hpicker : db'.picker = db.picker.choose P b := picker_of_writes htab
  have hremembered : db'.picker.remembered P = some b := by simp [hpicker]
  exact ⟨congrArg Picker.selection hpicker, hremembered⟩

/-- An active board of an active project is selected from a valid context. -/
theorem selectTx_contextOk (hok : ContextOk db.toTables) (hproject : ActiveProject db.toTables P)
    (hboard : ActiveBoard db.toTables P b) (h : selectTx P b db = .ok () db') :
    ContextOk db'.toTables ∧ Selects db' P b := by
  have htab := selectTx_ok (hasProject_of_active hproject) (hasBoard_of_active hboard) h
  refine ⟨?_, selects_choose htab⟩
  rw [htab]
  exact hok.choose hproject hboard

/-! ## The requests -/

/-- The request keeps the context valid, and selects what it answers. -/
abbrev Serves {α : Type} (x : StoreM α) (db : Db) (answer : α → Option (Int × Int)) : Prop :=
  Ensures (fun db => ContextOk db.toTables) x db fun a db' => ∀ P b, answer a = some (P, b) →
    Selects db' P b

theorem serves_selectTx (hok : ContextOk db.toTables)
    (hproject : ActiveProject db.toTables project.id)
    (hboard : ActiveBoard db.toTables project.id board.id) :
    Serves (do transaction (selectTx project.id board.id); pure (project, board)) db selected := by
  refine (ensures_transaction (Q := fun _ db' => Selects db' project.id board.id) hok
    fun _ _ h => selectTx_contextOk hok hproject hboard h).bind fun _ db' hok' hselects => ?_
  refine ensures_pure hok' fun P b heq => ?_
  cases heq
  exact hselects

theorem mainBoard_ok (h : mainBoard P db = .ok board db') : ActiveBoard db.toTables P board.id := by
  obtain ⟨_, _, hget, h⟩ := bind_ok.mp h
  obtain ⟨rfl, rfl⟩ := get_ok.mp hget
  cases hmain : (db.activeBoards P).find? fun b => Tables.noCase b.name == Tables.noCase "main" with
  | some r =>
      simp only [hmain] at h
      obtain ⟨rfl, -⟩ := pure_ok.mp h
      exact activeBoard_of_mem (List.mem_of_find?_eq_some hmain)
  | none =>
      simp only [hmain] at h
      obtain ⟨hhead, -⟩ := okOr_ok.mp h
      exact activeBoard_of_mem (List.mem_of_head? hhead)

/-- In a valid context, the board of a project's context is one of its active boards. -/
theorem projectContextBoard_ok (hok : ContextOk db.toTables)
    (h : projectContextBoard P db = .ok board db') : ActiveBoard db.toTables P board.id := by
  obtain ⟨_, _, hget, h⟩ := bind_ok.mp h
  obtain ⟨rfl, rfl⟩ := get_ok.mp hget
  cases hremembered : db.selectedBoardIdFor P with
  | none =>
      simp only [hremembered] at h
      exact mainBoard_ok h
  | some id =>
      simp only [hremembered] at h
      have hrow := Picker.mem_of_remembered (p := db.picker) hremembered
      obtain ⟨r, hr, hproject, hactive⟩ := (hok.remembered _ hrow).2.board?
      obtain ⟨_, _, hget, h⟩ := bind_ok.mp h
      obtain ⟨hfind, rfl⟩ := getBoard_ok.mp hget
      cases hr.symm.trans hfind
      simp only [hactive, Option.isNone_none, ↓reduceIte] at h
      obtain ⟨rfl, -⟩ := pure_ok.mp h
      exact activeBoard_of_mem (mem_activeBoards.mpr ⟨Table.mem_of_find? hr, hproject, hactive⟩)

theorem projectByScope_mem {scopePath : String} (h : db.projectByScope scopePath = some project) :
    project ∈ db.projects := (Table.mem_select.mp (List.mem_of_head? h)).1

/-- A project that is not archived, there or created. -/
theorem ensures_getOrCreateProject (hok : ContextOk db.toTables) (scopePath : String) :
    Ensures (fun db => ContextOk db.toTables) (getOrCreateProject scopePath) db fun project db' =>
      (∀ p, db.projectByScope scopePath = some p → p.archivedAt = none) →
        ActiveProject db'.toTables project.id := by
  refine (readOnly_refuse _ _).ensures_bind hok fun _ _ =>
    readOnly_get.ensures_bind hok fun _ hget => ?_
  obtain ⟨rfl, -⟩ := get_ok.mp hget
  split
  next p hp => exact ensures_pure hok fun hactive => ⟨p, projectByScope_mem hp, rfl, hactive p hp⟩
  next =>
    refine (ensures_transaction (Q :=
      fun (ids : Int × Int) (db' : Db) => ActiveProject db'.toTables ids.1) hok fun ids db' h =>
        ?_).bind
      fun ids db' hok' hproject => ?_
    · obtain ⟨hgrows, hproject, -⟩ :=
        insertProjectWithBoard_ok (fun _ _ hrow => insertProjectRow_ok hrow) h
      exact ⟨hgrows.contextOk hok, hproject⟩
    · refine (readOnly_getProject ids.1).ensures hok' fun p hp _ => ?_
      obtain ⟨hfind, -⟩ := getProject_ok.mp hp
      exact (show p.id = ids.1 from Table.key_of_find? hfind) ▸ hproject

theorem serves_openProjectContext (hok : ContextOk db.toTables) {scopePath : String}
    (hactive : ∀ p, db.projectByScope scopePath = some p → p.archivedAt = none) :
    Serves (openProjectContext scopePath) db selected := by
  refine (readOnly_refuse _ _).ensures_bind hok fun _ _ => ?_
  refine (ensures_getOrCreateProject hok scopePath).bind fun project db' hok' hproject => ?_
  refine (readOnly_projectContextBoard project.id).ensures_bind hok' fun board hboard => ?_
  exact serves_selectTx hok' (hproject hactive) (projectContextBoard_ok hok' hboard)

theorem readOnly_projectOpenCheck (scopePath : String) : ReadOnly (projectOpenCheck scopePath) :=
  readOnly_get.bind fun _ => readOnly_refuse _ _

theorem serves_projectOpen (hok : ContextOk db.toTables) (scopePath : String) :
    Serves (projectOpen scopePath) db selected := by
  refine (readOnly_projectOpenCheck scopePath).ensures_bind hok fun _ h => ?_
  simp only [projectOpenCheck, bind_ok, get_ok, refuse_ok] at h
  obtain ⟨_, _, ⟨rfl, rfl⟩, hnot, -⟩ := h
  refine serves_openProjectContext hok fun p hp => ?_
  simpa [hp] using hnot

theorem serves_projectCreate (hok : ContextOk db.toTables) (validated : Except Error Unit)
    (scopePath : String) : Serves (projectCreate validated scopePath) db selected := by
  refine (readOnly_fromExcept _).ensures_bind hok fun _ _ =>
    (readOnly_refuse _ _).ensures_bind hok fun _ _ => ?_
  refine (ensures_transaction (Q := fun ids db' => Selects db' ids.1 ids.2) hok
    fun ids db' h => ?_).bind fun ids db' hok' hselects => ?_
  · obtain ⟨ids', db₁, hinsert, h⟩ := bind_ok.mp h
    obtain ⟨_, db₂, hselect, h⟩ := bind_ok.mp h
    obtain ⟨rfl, rfl⟩ := pure_ok.mp h
    obtain ⟨hgrows, hproject, hboard⟩ :=
      insertProjectWithBoard_ok
        (fun _ _ hrow => insertProjectRow_ok (rejectDuplicate_ok.mp hrow)) hinsert
    exact selectTx_contextOk (hgrows.contextOk hok) hproject hboard hselect
  · refine (readOnly_getProject _).ensures_bind hok' fun project hproject => ?_
    refine (readOnly_getBoard _).ensures_bind hok' fun board hboard => ?_
    refine ensures_pure hok' fun P b heq => ?_
    cases heq
    have hp := Table.key_of_find? (getProject_ok.mp hproject).1
    have hb := Table.key_of_find? (getBoard_ok.mp hboard).1
    exact (show project.id = ids.1 from hp) ▸ (show board.id = ids.2 from hb) ▸ hselects

theorem readOnly_boardNotArchived (boardId : Option Int) : ReadOnly (boardNotArchived boardId) := by
  cases boardId with
  | none => exact readOnly_pure ()
  | some id => exact (readOnly_getBoard id).bind fun _ => readOnly_refuse _ _

theorem readOnly_projectSelectCheck (scopePath : String) (boardId : Option Int) :
    ReadOnly (projectSelectCheck scopePath boardId) :=
  (readOnly_requireProjectByScope scopePath).bind fun _ => (readOnly_refuse _ _).bind fun _ =>
    readOnly_boardNotArchived boardId

theorem readOnly_boardSelectCheck (boardId : Int) : ReadOnly (boardSelectCheck boardId) :=
  (readOnly_getBoard boardId).bind fun _ => (readOnly_refuse _ _).bind fun _ =>
    (readOnly_getProject _).bind fun _ =>
    readOnly_refuse _ _

theorem serves_projectSelect (hok : ContextOk db.toTables) (scopePath : String)
    (boardId : Option Int) : Serves (projectSelect scopePath boardId) db selected := by
  refine (readOnly_projectSelectCheck scopePath boardId).ensures_bind hok fun _ h => ?_
  obtain ⟨p, _, hp, h⟩ := bind_ok.mp h
  cases (readOnly_requireProjectByScope scopePath).ok hp
  obtain ⟨_, _, hrefuse, hnot⟩ := bind_ok.mp h
  obtain ⟨hactive, rfl⟩ := refuse_ok.mp hrefuse
  refine (readOnly_requireProjectByScope scopePath).ensures_bind hok fun project hproject => ?_
  cases hp.symm.trans hproject
  simp only [requireProjectByScope, bind_ok, get_ok, okOr_ok] at hp
  obtain ⟨_, _, ⟨rfl, rfl⟩, hscope, -⟩ := hp
  have hproject : ActiveProject db.toTables p.id :=
    ⟨p, projectByScope_mem hscope, rfl, by simpa using hactive⟩
  refine (readOnly_selectedBoard p boardId).ensures_bind hok fun board hboard => ?_
  refine serves_selectTx hok hproject ?_
  cases boardId with
  | none => exact projectContextBoard_ok hok hboard
  | some id =>
      simp only [selectedBoard, boardNotArchived, bind_ok, getBoard_ok, refuse_ok, pure_ok]
        at hboard hnot
      obtain ⟨r, _, ⟨hr, rfl⟩, _, _, ⟨hsame, rfl⟩, rfl, -⟩ := hboard
      obtain ⟨r', _, ⟨hr', rfl⟩, hnot, -⟩ := hnot
      cases hr.symm.trans hr'
      exact ⟨r, Table.mem_of_find? hr, rfl, not_not.mp hsame, by simpa using hnot⟩

theorem serves_boardSelect (hok : ContextOk db.toTables) (boardId : Int) :
    Serves (boardSelect boardId) db selected := by
  refine (readOnly_boardSelectCheck boardId).ensures_bind hok fun _ h => ?_
  simp only [boardSelectCheck, bind_ok, getBoard_ok, getProject_ok, refuse_ok] at h
  obtain ⟨r, _, ⟨hr, rfl⟩, _, _, ⟨hboard, rfl⟩, p, _, ⟨hp, rfl⟩, hproject, -⟩ := h
  refine (readOnly_getBoard boardId).ensures_bind hok fun board hgetBoard => ?_
  cases hr.symm.trans (getBoard_ok.mp hgetBoard).1
  refine (readOnly_getProject _).ensures_bind hok fun project hgetProject => ?_
  cases hp.symm.trans (getProject_ok.mp hgetProject).1
  have hid : p.id = r.projectId := Table.key_of_find? hp
  have hactive : ActiveProject db.toTables p.id :=
    hid ▸ activeProject_of_find hp (by simpa using hproject)
  exact serves_selectTx hok hactive ⟨r, Table.mem_of_find? hr, rfl, hid.symm, by simpa using hboard⟩

theorem serves_boardCreate (hok : ContextOk db.toTables) (projectId : Int) (name : String) :
    Serves (createBoard projectId name) db fun board => some (projectId, board.id) := by
  refine (readOnly_refuse _ _).ensures_bind hok fun _ _ => ?_
  refine (readOnly_getProject projectId).ensures_bind hok fun project hproject => ?_
  refine (readOnly_refuse _ _).ensures_bind hok fun _ hrefuse => ?_
  have hactive : ActiveProject db.toTables projectId :=
    activeProject_of_find (getProject_ok.mp hproject).1 (by simpa using (refuse_ok.mp hrefuse).1)
  refine (ensures_transaction (Q := fun b db' => Selects db' projectId b) hok
    fun b db' h => ?_).bind fun b db' hok' hselects => ?_
  · obtain ⟨b', db₁, hinsert, h⟩ := bind_ok.mp h
    obtain ⟨_, db₂, hseed, h⟩ := bind_ok.mp h
    obtain ⟨_, db₃, hselect, h⟩ := bind_ok.mp h
    obtain ⟨rfl, rfl⟩ := pure_ok.mp h
    obtain ⟨hgrows, hboard⟩ := insertBoard_ok (rejectDuplicate_ok.mp hinsert)
    have hseeded := grows_seedTodoTx hseed
    have hgrown := hgrows.trans hseeded
    exact selectTx_contextOk (hgrown.contextOk hok) (hgrown.activeProject hactive)
      (hseeded.activeBoard hboard) hselect
  · refine (readOnly_getBoard b).ensures hok' fun board hboard P b' heq => ?_
    cases heq
    have hb := Table.key_of_find? (getBoard_ok.mp hboard).1
    exact (show board.id = b from hb) ▸ hselects

/-! ## Archiving and restoring -/

theorem contextOk_setBoardArchived (hok : ContextOk db.toTables) (b : Int) (archived : Bool) :
    ContextOk (finalState (setBoardArchived conn b archived db)).toTables := by
  cases hb : db.board? b with
  | none =>
      have hsame : finalState (setBoardArchived conn b archived db) = db :=
        (readOnly_getBoard b).finalState_bind_of_fails fun board h => by simp [hb] at h
      exact hsame.symm ▸ hok
  | some board =>
      cases (show board.id = b from Table.key_of_find? hb)
      by_cases hstays : BoardStays db board archived
      · rw [board_stays hb hstays]
        exact hok
      · obtain ⟨db₁, h₁, hfinal⟩ := board_archives conn hb hstays
        rw [hfinal]
        cases archived with
        | true => exact contextOk_reselected hb h₁ hok
        | false =>
            have hrestored := hok.restoreBoard conn board.id
            rw [← h₁] at hrestored
            exact hrestored

theorem contextOk_setProjectArchived (hok : ContextOk db.toTables) (scopePath : String)
    (archived : Bool) :
    ContextOk (finalState (setProjectArchived conn scopePath archived db)).toTables := by
  cases hp : db.projectByScope scopePath with
  | none =>
      have hsame : finalState (setProjectArchived conn scopePath archived db) = db :=
        (readOnly_requireProjectByScope scopePath).finalState_bind_of_fails fun project h => by
          simp [requireProjectByScope, hp] at h
      exact hsame.symm ▸ hok
  | some project =>
      by_cases hstays : ProjectStays db project archived
      · rw [project_stays hp hstays]
        exact hok
      · obtain ⟨db₁, h₁, hfinal⟩ := project_archives conn hp hstays
        have hempty : archived = true → db.activeBoards project.id = [] := by
          rintro rfl
          exact activeBoards_of_archives hstays
        have harchived := hok.archiveProject conn project.id archived hempty
        rw [← h₁] at harchived
        rw [hfinal]
        split
        · exact contextOk_fallback (picker_ok db₁) harchived.toListed harchived.remembered
        · exact harchived

/-! ## Every order of requests -/

theorem serves_answered {α : Type} {x : StoreM α} {answer : α → Option (Int × Int)}
    (h : Serves x db answer) : Serves (do let a ← x; pure (answer a)) db id :=
  h.bind fun _ _ hok hanswer => ensures_pure hok hanswer

theorem serves_silent {α : Type} {x : StoreM α} (h : ContextOk (finalState (x db)).toTables) :
    Serves (do let _ ← x; pure none) db id :=
  @serves_answered _ _ _ (fun _ => none) ⟨h, fun _ _ _ _ _ heq => by cases heq⟩

theorem serves_place (hok : ContextOk db.toTables) (conn : Conn) (r : PlaceRequest) :
    Serves (servePlace conn r) db id := by
  cases r with
  | projectOpen scopePath => exact serves_answered (serves_projectOpen hok scopePath)
  | projectCreate validated scopePath =>
      exact serves_answered (serves_projectCreate hok validated scopePath)
  | projectSelect scopePath boardId =>
      exact serves_answered (serves_projectSelect hok scopePath boardId)
  | projectArchive scopePath archived =>
      exact serves_silent (contextOk_setProjectArchived hok scopePath archived)
  | boardOpen scopePath =>
      have hopen : Ensures (fun db => ContextOk db.toTables)
          (openBoard scopePath) db fun _ _ => True :=
        (ensures_getOrCreateProject hok scopePath).bind fun project _ hok' _ =>
          (readOnly_projectContextBoard project.id).ensures hok' fun _ _ => trivial
      exact serves_silent hopen.inv
  | boardCreate projectId name => exact serves_answered (serves_boardCreate hok projectId name)
  | boardSelect boardId => exact serves_answered (serves_boardSelect hok boardId)
  | boardArchive boardId archived =>
      exact serves_silent (contextOk_setBoardArchived hok boardId archived)

theorem contextOk_fresh : ContextOk Db.fresh.toTables where
  recents r hr := by cases hr
  projectRanks := ⟨List.nodup_nil, rfl, Nat.zero_le 3⟩
  boardRanks _ := ⟨List.nodup_nil, rfl, Nat.zero_le 3⟩
  remembered s hs := by cases hs
  selected P hP := by cases hP
  first P hP := by cases hP

theorem contextOk_of_reachable (h : places.Reachable db) : ContextOk db.toTables := by
  refine h.invariant (I := fun db => ContextOk db.toTables) ?_ ?_
  · rintro db rfl
    exact contextOk_fresh
  · rintro db r db' hok - rfl
    exact (serves_place hok r.1 r.2).inv

/-- The project and the board are selected and the most recent ones. -/
structure OnTop (db : Db) (P b : Int) : Prop extends Selects db P b where
  project_first : (P, 0) ∈ db.projectRecents
  board_first : (P, b, 0) ∈ db.boardRecents

/-- What a valid context is to its readers. -/
structure ValidContext (db : Db) : Prop where
  selected : ∀ P, db.selection = some P → ∃ project b board, db.project? P = some project ∧
    project.archivedAt = none ∧
    db.board? b = some board ∧ board.projectId = P ∧ board.archivedAt = none ∧ OnTop db P b
  projects : Ranked db.projectRecents
  boards : ∀ P, Ranked ((db.boardRecents.filter fun r => r.1 == P).map Prod.snd)

theorem validContext_of_contextOk (hok : ContextOk db.toTables) : ValidContext db where
  selected P hP := by
    obtain ⟨s, hs, rfl⟩ := hok.selected P hP
    obtain ⟨⟨project, hproject, hid, hactive⟩, hboard⟩ := hok.remembered s hs
    obtain ⟨board, hfind, hboardProject, hboardActive⟩ := hboard.board?
    obtain ⟨hfirst, hboards⟩ := hok.first s.1 hP
    exact ⟨project, s.2, board, hid ▸ Table.find?_key hproject, hactive, hfind, hboardProject,
      hboardActive, ⟨hP, Picker.remembered_of_mem (picker_ok db) hs⟩, hfirst, hboards s hs rfl⟩
  projects := hok.projectRanks
  boards := hok.boardRanks

theorem ValidContext.onTop (h : ValidContext db) (hselects : Selects db P b) : OnTop db P b := by
  obtain ⟨_, b', _, -, -, -, -, -, htop⟩ := h.selected P hselects.selected
  cases htop.board.symm.trans hselects.board
  exact htop

/-- In every order of project and board requests the context stays valid, and a request that selects
leaves its project and board on top. -/
theorem context_stays_valid (h : places.Reachable db) :
    ValidContext db ∧ ∀ conn r P b db', servePlace conn r db = .ok (some (P, b)) db' →
      OnTop db' P b := by
  have hok := contextOk_of_reachable h
  refine ⟨validContext_of_contextOk hok, fun conn r P b db' hserve => ?_⟩
  have hserves := serves_place hok conn r
  exact (validContext_of_contextOk (hserves.ok hserve)).onTop (hserves.answer _ db' hserve P b rfl)

theorem context_stays_valid_of_create :
    ValidContext (finalState (servePlace { now := "" } (.projectCreate (.ok ()) "/a") Db.fresh)) :=
  (context_stays_valid ((System.ReachableBy.init (S := places) rfl).step trivial
    (l := ({ now := "" }, .projectCreate (.ok ()) "/a")) rfl)).1

end HerdrBoard.Projects
