import HerdrBoard.Projects.Picker

/-!
# Selecting

What the statements of the store write to the picker. The ids they write are there, so they
do not fail. -/

open Lib HerdrBoard.Core

namespace HerdrBoard.Projects

/-- The computation succeeds and writes the picker, and nothing else. -/
def Writes (x : StoreM Unit) (db : Db) (p : Picker) : Prop :=
  ∃ db', x db = .ok () db' ∧ db'.toTables = db.toTables.withPicker p

variable {db db' : Db} {p q : Picker} {x : StoreM Unit} {conn : Conn} {P b : Int}

theorem writes_exec {f : Tables → Tables} (hf : f db.toTables = db.toTables.withPicker p)
    (hp : p.Ok db.toTables) : Writes (exec f) db p := by
  have hsound : (f db.toTables).violation = none := by
    rw [hf]
    exact violation_withPicker hp
  exact ⟨_, exec_total hsound, hf⟩

theorem Writes.bind {y : StoreM Unit} (hx : Writes x db p)
    (hy : ∀ db', db'.toTables = db.toTables.withPicker p → Writes y db' q) :
    Writes (x >>= fun _ => y) db q := by
  obtain ⟨db', hrun, htab⟩ := hx
  obtain ⟨db'', hrun', htab'⟩ := hy db' htab
  exact ⟨db'', bind_ok.mpr ⟨(), db', hrun, hrun'⟩, htab'.trans (by rw [htab]; rfl)⟩

theorem writes_get {f : Db → StoreM Unit} (h : Writes (f db) db p) : Writes (get >>= f) db p := by
  obtain ⟨db', hrun, htab⟩ := h
  exact ⟨db', bind_ok.mpr ⟨db, db, rfl, hrun⟩, htab⟩

theorem writes_pure : Writes (pure ()) db db.picker := ⟨db, rfl, rfl⟩

theorem picker_of_writes (htab : db'.toTables = db.toTables.withPicker p) : db'.picker = p := by
  rw [htab]
  rfl

theorem ok_of_writes (htab : db'.toTables = db.toTables.withPicker p) (hq : q.Ok db.toTables) :
    q.Ok db'.toTables := by
  rw [htab]
  exact { hq with }

/-! ## A project and one of its boards -/

theorem writes_writeSelectionTx (hP : db.hasProject P) (hb : db.hasBoard b) :
    Writes (writeSelectionTx P b) db ({ db.picker with selection := some P }.remember P b) := by
  refine (writes_exec rfl ((picker_ok db).select hP)).bind fun db' htab => ?_
  refine writes_exec ?_ (ok_of_writes htab (((picker_ok db).select hP).remember hP hb))
  rw [htab]
  rfl

theorem writes_touchProjectRecencyTx (hP : db.hasProject P) :
    Writes (touchProjectRecencyTx P) db (db.picker.touchProject P) :=
  writes_get (writes_exec rfl ((picker_ok db).touchProject hP))

theorem writes_touchBoardRecencyTx (hP : db.hasProject P) (hb : db.hasBoard b) :
    Writes (touchBoardRecencyTx P b) db (db.picker.touchBoard P b) :=
  writes_get (writes_exec rfl ((picker_ok db).touchBoard hP hb))

theorem hasProject_of_writes (htab : db'.toTables = db.toTables.withPicker p)
    (hP : db.hasProject P) : db'.hasProject P := by
  rw [htab]
  exact hP

theorem hasBoard_of_writes (htab : db'.toTables = db.toTables.withPicker p) (hb : db.hasBoard b) :
    db'.hasBoard b := by
  rw [htab]
  exact hb

theorem writes_selectTx (hP : db.hasProject P) (hb : db.hasBoard b) :
    Writes (selectTx P b) db (db.picker.choose P b) := by
  refine (writes_writeSelectionTx hP hb).bind fun db₁ htab₁ => ?_
  have hP₁ := hasProject_of_writes htab₁ hP
  refine (writes_touchProjectRecencyTx hP₁).bind fun db₂ htab₂ => ?_
  have hwrites := writes_touchBoardRecencyTx (hasProject_of_writes htab₂ hP₁)
    (hasBoard_of_writes htab₂ (hasBoard_of_writes htab₁ hb))
  rwa [picker_of_writes htab₂, picker_of_writes htab₁] at hwrites

/-- The other order of the two recency lists. -/
theorem writes_selectTx' (hP : db.hasProject P) (hb : db.hasBoard b) :
    Writes (do writeSelectionTx P b; touchBoardRecencyTx P b; touchProjectRecencyTx P) db
      (db.picker.choose P b) := by
  refine (writes_writeSelectionTx hP hb).bind fun db₁ htab₁ => ?_
  have hP₁ := hasProject_of_writes htab₁ hP
  refine (writes_touchBoardRecencyTx hP₁ (hasBoard_of_writes htab₁ hb)).bind fun db₂ htab₂ => ?_
  have hwrites := writes_touchProjectRecencyTx (hasProject_of_writes htab₂ hP₁)
  rwa [picker_of_writes htab₂, picker_of_writes htab₁] at hwrites

/-! ## After archiving -/

/-- The fallback project with its first active board, or no selection. -/
def fallbackContext (db : Db) (conn : Conn) (p : Picker) : Picker :=
  match db.findActiveProjectFallback conn with
  | none => { p with selection := none }
  | some pid =>
      match (db.activeBoards pid).head? with
      | some board => p.choose pid board.id
      | none => { p with selection := none }

/-- The picker once the board of the project is archived. -/
def reselected (db : Db) (conn : Conn) (projectId boardId : Int) : Picker :=
  if db.selectedBoardIdFor projectId = some boardId then
    match db.fallbackBoard projectId boardId with
    | some fallback => db.picker.choose projectId fallback
    | none =>
        if db.selection = some projectId then fallbackContext db conn (db.picker.forget projectId)
        else db.picker.forget projectId
  else db.picker

theorem hasProject_of_mem {project : Project} (h : project ∈ db.projects) :
    db.hasProject project.id :=
  Table.find?_isSome_iff.mpr (Table.mem_keys.mpr ⟨project, h, rfl⟩)

theorem hasBoard_of_mem {board : Board} (h : board ∈ db.boards) : db.hasBoard board.id :=
  Table.find?_isSome_iff.mpr (Table.mem_keys.mpr ⟨board, h, rfl⟩)

theorem mem_activeBoards {board : Board} :
    board ∈ db.activeBoards P ↔
      board ∈ db.boards ∧ board.projectId = P ∧ board.archivedAt = none := by
  simp [Db.activeBoards, Option.isNone_iff_eq_none]

theorem hasBoard_of_head {board : Board} (h : (db.activeBoards P).head? = some board) :
    db.hasBoard board.id :=
  hasBoard_of_mem (mem_activeBoards.mp (List.mem_of_head? h)).1

theorem hasProject_of_fallback (h : db.findActiveProjectFallback conn = some P) :
    db.hasProject P := by
  rcases List.mem_append.mp (List.mem_of_find?_eq_some h) with hrecent | hpath
  · obtain ⟨r, hr, rfl⟩ :=
      Picker.mem_recentProjects.mp (show P ∈ db.picker.recentProjects from hrecent)
    exact (picker_ok db).recents r hr
  · obtain ⟨project, hproject, rfl⟩ := List.mem_map.mp hpath
    simp only [Db.projectsByPath, List.mem_insertionSort, Table.mem_select] at hproject
    exact hasProject_of_mem hproject.1

theorem hasBoard_of_fallback {fallback : Int} (h : db.fallbackBoard P b = some fallback) :
    db.hasBoard fallback := by
  unfold Db.fallbackBoard at h
  split at h
  next id hrecent =>
    cases h
    obtain ⟨r, hr, -, rfl⟩ := Picker.mem_recentBoards.mp
      (show fallback ∈ db.picker.recentBoards P from List.mem_of_find?_eq_some hrecent)
    exact ((picker_ok db).board_recents r hr).2
  next =>
    obtain ⟨board, hboard, rfl⟩ := Option.map_eq_some_iff.mp h
    exact hasBoard_of_head hboard

theorem fallbackContext_congr (htab : db'.toTables = db.toTables.withPicker p)
    (hrecents : p.projectRecents = db.projectRecents) (q : Picker) :
    fallbackContext db' conn q = fallbackContext db conn q := by
  have hprojects : db'.projects = db.projects := by rw [htab]; rfl
  have hboards : db'.boards = db.boards := by rw [htab]; rfl
  have hranks : db'.projectRecents = db.projectRecents := by rw [htab, ← hrecents]; rfl
  have hactive : db'.isActiveProject = db.isActiveProject := by
    funext pid
    simp only [Db.isActiveProject, Db.project?, Db.activeBoards, hprojects, hboards]
  simp only [fallbackContext, Db.findActiveProjectFallback, Db.projectsByPath, Db.activeBoards,
    Db.recentProjectIds, hprojects, hboards, hranks, hactive]

theorem writes_selectFallbackProject (db : Db) (conn : Conn) :
    Writes (selectFallbackProject conn) db (fallbackContext db conn db.picker) := by
  refine writes_get ?_
  unfold fallbackContext
  cases hpid : db.findActiveProjectFallback conn with
  | none => exact writes_exec rfl (picker_ok db).deselect
  | some pid =>
      simp only
      cases hboard : (db.activeBoards pid).head? with
      | some board => exact writes_selectTx (hasProject_of_fallback hpid) (hasBoard_of_head hboard)
      | none => exact writes_exec rfl (picker_ok db).deselect

theorem writes_reselectAfterArchive (conn : Conn) (hP : db.hasProject P) (b : Int) :
    Writes (reselectAfterArchive conn P b) db (reselected db conn P b) := by
  refine writes_get ?_
  unfold reselected
  by_cases hremembered : db.selectedBoardIdFor P = some b
  · simp only [hremembered, ↓reduceIte]
    cases hfallback : db.fallbackBoard P b with
    | some fallback => exact writes_selectTx' hP (hasBoard_of_fallback hfallback)
    | none =>
        refine (writes_exec rfl ((picker_ok db).forget P)).bind fun db' htab => ?_
        by_cases hselected : db.selection = some P
        · have hwrites := writes_selectFallbackProject db' conn
          rw [picker_of_writes htab, fallbackContext_congr htab rfl] at hwrites
          simpa only [hselected, ↓reduceIte] using hwrites
        · simpa only [hselected, ↓reduceIte] using picker_of_writes htab ▸ writes_pure
  · simpa only [hremembered, ↓reduceIte] using writes_pure

end HerdrBoard.Projects
