import HerdrBoard.Core.Lemmas.Frames

/-!
# Projects and boards that come in

Which projects and boards are archived, and what requests other than archiving do to them: they add
active projects, and boards of active projects. -/

namespace HerdrBoard.Core

open Lib

/-- The projects and the boards, with whether they are archived. -/
def Tables.sites (t : Tables) : List (Int × Bool) × List (Int × Int × Bool) :=
  (t.projects.rows.map fun p => (p.id, p.archivedAt.isSome),
    t.boards.rows.map fun b => (b.id, b.projectId, b.archivedAt.isSome))

namespace Tables

variable {t t' : Tables} {P b : Int}

/-- The project is there, archived or not. -/
def ProjectIs (t : Tables) (P : Int) (archived : Bool) : Prop := (P, archived) ∈ t.sites.1

/-- The board is there as one of the project's, archived or not. -/
def BoardIs (t : Tables) (b P : Int) (archived : Bool) : Prop := (b, P, archived) ∈ t.sites.2

theorem projectIs_iff {archived : Bool} :
    t.ProjectIs P archived ↔ ∃ p ∈ t.projects, p.id = P ∧ p.archivedAt.isSome = archived := by
  simp [ProjectIs, sites, Table.mem_def]

theorem boardIs_iff {archived : Bool} :
    t.BoardIs b P archived ↔
      ∃ r ∈ t.boards, r.id = b ∧ r.projectId = P ∧ r.archivedAt.isSome = archived := by
  simp [BoardIs, sites, Table.mem_def]

theorem ProjectIs.unique {a a' : Bool} (h : t.ProjectIs P a) (h' : t.ProjectIs P a') : a = a' := by
  obtain ⟨p, hp, hid, rfl⟩ := projectIs_iff.mp h
  obtain ⟨p', hp', hid', rfl⟩ := projectIs_iff.mp h'
  rw [Table.eq_of_key_eq hp hp' (hid.trans hid'.symm)]

theorem BoardIs.unique {a a' : Bool} {P' : Int} (h : t.BoardIs b P a) (h' : t.BoardIs b P' a') :
    P = P' ∧ a = a' := by
  obtain ⟨r, hr, hid, rfl, rfl⟩ := boardIs_iff.mp h
  obtain ⟨r', hr', hid', rfl, rfl⟩ := boardIs_iff.mp h'
  cases Table.eq_of_key_eq hr hr' (hid.trans hid'.symm)
  exact ⟨rfl, rfl⟩

end Tables

/-- What was there stays as it was; a project that comes in is active, a board that comes in belongs
to an active project. -/
structure Enters (t t' : Tables) : Prop where
  projects : ∀ {P a}, t.ProjectIs P a → t'.ProjectIs P a
  boards : ∀ {b P a}, t.BoardIs b P a → t'.BoardIs b P a
  new_projects : ∀ {P a}, t'.ProjectIs P a → t.ProjectIs P a ∨ a = false
  new_boards : ∀ {b P a}, t'.BoardIs b P a → t.BoardIs b P a ∨ t'.ProjectIs P false

theorem Enters.refl (t : Tables) : Enters t t := ⟨id, id, .inl, .inl⟩

theorem Enters.trans {t t' t'' : Tables} (h : Enters t t') (h' : Enters t' t'') : Enters t t'' where
  projects hp := h'.projects (h.projects hp)
  boards hb := h'.boards (h.boards hb)
  new_projects hp := (h'.new_projects hp).elim h.new_projects .inr
  new_boards hb := (h'.new_boards hb).elim (fun hb => (h.new_boards hb).imp id h'.projects) .inr

theorem enters_of_sites {t t' : Tables} (h : t'.sites = t.sites) : Enters t t' where
  projects hp := by unfold Tables.ProjectIs; rwa [h]
  boards hb := by unfold Tables.BoardIs; rwa [h]
  new_projects hp := .inl (by unfold Tables.ProjectIs at hp; rwa [h] at hp)
  new_boards hb := .inl (by unfold Tables.BoardIs at hb; rwa [h] at hb)

/-- The same for whole stores. -/
def EntersDb (db db' : Db) : Prop := Enters db.toTables db'.toTables

instance : Std.Refl EntersDb := ⟨fun db => .refl db.toTables⟩

instance : IsTrans Db EntersDb := ⟨fun _ _ _ h h' => h.trans h'⟩

theorem respects_enters {α : Type} {x : StoreM α} (h : KeepsTables Tables.sites x) :
    Respects EntersDb x :=
  h.mono fun _ _ hst => enters_of_sites hst

/-! ## Statements -/

theorem enters_insertProject {t : Tables} {row : Int → Project} {hkey}
    (hrow : ∀ k, (row k).archivedAt = none) :
    Enters t { t with projects := t.projects.insert row hkey } where
  projects h := by
    obtain ⟨p, hp, hp'⟩ := Tables.projectIs_iff.mp h
    have hmem : p ∈ t.projects.insert row hkey := Table.mem_insert.mpr (.inl hp)
    exact Tables.projectIs_iff.mpr ⟨p, hmem, hp'⟩
  boards h := h
  new_projects h := by
    obtain ⟨p, hp, hid, rfl⟩ := Tables.projectIs_iff.mp h
    rcases Table.mem_insert.mp (show p ∈ t.projects.insert row hkey from hp) with hp | rfl
    · exact .inl (Tables.projectIs_iff.mpr ⟨p, hp, hid, rfl⟩)
    · exact .inr (by simp [hrow])
  new_boards h := .inl h

theorem enters_insertBoard {t : Tables} {row : Int → Board} {hkey} {P : Int}
    (hrow : ∀ k, (row k).projectId = P)
    (hP : t.ProjectIs P false) : Enters t { t with boards := t.boards.insert row hkey } where
  projects h := h
  boards h := by
    obtain ⟨r, hr, hr'⟩ := Tables.boardIs_iff.mp h
    have hmem : r ∈ t.boards.insert row hkey := Table.mem_insert.mpr (.inl hr)
    exact Tables.boardIs_iff.mpr ⟨r, hmem, hr'⟩
  new_projects h := .inl h
  new_boards h := by
    obtain ⟨r, hr, hid, rfl, rfl⟩ := Tables.boardIs_iff.mp h
    rcases Table.mem_insert.mp (show r ∈ t.boards.insert row hkey from hr) with hr | rfl
    · exact .inl (Tables.boardIs_iff.mpr ⟨r, hr, hid, rfl, rfl⟩)
    · exact .inr (hrow _ ▸ hP)

theorem columnBlind_sites : ColumnBlind Tables.sites := fun _ _ => rfl

theorem pickerBlind_sites : PickerBlind Tables.sites := fun _ _ _ _ _ => rfl

/-! ## Operations -/

variable {db db' : Db}

theorem entersDb_insertBoard {name : String} {P b : Int} (hP : db.ProjectIs P false)
    (h : insertBoard (fun id => { id, projectId := P, name, archivedAt := none })
    (fun _ => rfl) db = .ok b db') : EntersDb db db' := by
  simp only [insertBoard, bind_ok, get_ok, exec_ok, pure_ok] at h
  obtain ⟨_, _, ⟨rfl, rfl⟩, _, _, htab, rfl, rfl⟩ := h
  unfold EntersDb
  rw [htab]
  exact enters_insertBoard (fun _ => rfl) hP

theorem rejectDuplicate_ok {α : Type} {duplicate : String} {x : StoreM α} {a : α} :
    rejectDuplicate duplicate x db = .ok a db' ↔ x db = .ok a db' := by
  unfold rejectDuplicate
  split
  next h => simp [h]
  · exact Iff.rfl

/-- A new project and its board. -/
theorem entersDb_insertProjectWithBoard {insertRow : StoreM Int} {ids : Int × Int}
    (hrow : ∀ P db₁, insertRow db = .ok P db₁ → EntersDb db db₁ ∧ db₁.ProjectIs P false)
    (h : insertProjectWithBoard insertRow db = .ok ids db') : EntersDb db db' := by
  obtain ⟨P, db₁, h₁, h⟩ := bind_ok.mp h
  obtain ⟨b, db₂, h₂, h⟩ := bind_ok.mp h
  obtain ⟨_, db₃, h₃, h⟩ := bind_ok.mp h
  obtain ⟨rfl, rfl⟩ := pure_ok.mp h
  obtain ⟨henters, hproject⟩ := hrow P db₁ h₁
  exact henters.trans ((entersDb_insertBoard hproject h₂).trans
    ((respects_enters (keeps_seedTodoTx columnBlind_sites b)).ok h₃))

theorem insertProjectRow_enters {scopePath : String} {P : Int}
    (h : insertProjectRow scopePath db = .ok P db') : EntersDb db db' ∧ db'.ProjectIs P false := by
  simp only [insertProjectRow, insertProject, bind_ok, get_ok, exec_ok, pure_ok] at h
  obtain ⟨_, _, ⟨rfl, rfl⟩, _, _, htab, rfl, rfl⟩ := h
  unfold EntersDb
  rw [htab]
  refine ⟨enters_insertProject fun _ => rfl, ?_⟩
  exact Tables.projectIs_iff.mpr ⟨_, Table.mem_insert.mpr (.inr rfl), rfl, rfl⟩

theorem enters_getOrCreateProject (scopePath : String) :
    Respects EntersDb (getOrCreateProject scopePath) := by
  refine (readOnly_refuse _ _).respects.bind fun _ => readOnly_get.respects.bind fun db => ?_
  split
  · exact respects_pure _
  · refine Respects.bind ?_ fun ids => (readOnly_getProject ids.1).respects
    exact Commits.transaction fun _ _ _ h =>
      entersDb_insertProjectWithBoard (fun _ _ hrow => insertProjectRow_enters hrow) h

theorem enters_openBoard (scopePath : String) : Respects EntersDb (openBoard scopePath) :=
  (enters_getOrCreateProject scopePath).bind fun project =>
    (readOnly_projectContextBoard project.id).respects

theorem enters_selectTx (projectId boardId : Int) :
    Respects EntersDb (transaction (selectTx projectId boardId)) :=
  respects_enters (keeps_selectTx pickerBlind_sites projectId boardId).transaction

theorem enters_openProjectContext (scopePath : String) :
    Respects EntersDb (openProjectContext scopePath) := by
  refine (readOnly_refuse _ _).respects.bind fun _ =>
    (enters_getOrCreateProject scopePath).bind fun project => ?_
  refine (readOnly_projectContextBoard project.id).respects.bind fun board => ?_
  exact (enters_selectTx project.id board.id).bind fun _ => respects_pure _

theorem enters_createProjectContext (scopePath : String) :
    Respects EntersDb (createProjectContext scopePath) := by
  refine (readOnly_refuse _ _).respects.bind fun _ =>
    Respects.bind (Commits.transaction ?_) fun ids =>
    (readOnly_getProject ids.1).respects.bind fun _ =>
      (readOnly_getBoard ids.2).respects.bind fun _ => respects_pure _
  intro db ids db' h
  obtain ⟨ids', db₁, hinsert, h⟩ := bind_ok.mp h
  obtain ⟨_, db₂, hselect, h⟩ := bind_ok.mp h
  obtain ⟨rfl, rfl⟩ := pure_ok.mp h
  have hinserted := entersDb_insertProjectWithBoard
    (fun _ _ hrow => insertProjectRow_enters (rejectDuplicate_ok.mp hrow)) hinsert
  exact hinserted.trans ((respects_enters (keeps_selectTx pickerBlind_sites _ _)).ok hselect)

theorem enters_selectProjectByScope (scopePath : String) (boardId : Option Int) :
    Respects EntersDb (selectProjectByScope scopePath boardId) := by
  refine (readOnly_requireProjectByScope scopePath).respects.bind fun project => ?_
  refine (readOnly_selectedBoard project boardId).respects.bind fun board => ?_
  exact (enters_selectTx project.id board.id).bind fun _ => respects_pure _

theorem enters_selectBoard (boardId : Int) : Respects EntersDb (selectBoard boardId) := by
  refine (readOnly_getBoard boardId).respects.bind fun board =>
    (readOnly_getProject _).respects.bind fun project => ?_
  exact (enters_selectTx project.id board.id).bind fun _ => respects_pure _

theorem enters_renameBoard (id : Int) (name : String) :
    Respects EntersDb (renameBoard id name) := by
  refine (readOnly_refuse _ _).respects.bind fun _ =>
    (readOnly_getBoard id).respects.bind fun _ => ?_
  refine Respects.bind (respects_enters (keeps_rejectDuplicate (keeps_exec fun t => ?_))) fun _ =>
    (readOnly_getBoard id).respects
  simp only [Tables.sites]
  rw [Table.map_rows_update]
  exact fun _ _ => rfl

theorem enters_createBoard (projectId : Int) (name : String) :
    Respects EntersDb (createBoard projectId name) := by
  intro db
  refine (readOnly_refuse _ _).bind_at fun _ _ =>
    (readOnly_getProject projectId).bind_at fun project hproject => ?_
  refine (readOnly_refuse _ _).bind_at fun _ hrefuse => ?_
  have hP : db.ProjectIs projectId false := by
    have hfind := (getProject_ok.mp hproject).1
    refine Tables.projectIs_iff.mpr
      ⟨project, Table.mem_of_find? hfind, Table.key_of_find? hfind, ?_⟩
    simpa using (refuse_ok.mp hrefuse).1
  refine bind_at ((atomic_transaction _).at fun b db' h => ?_) fun b t _ =>
    (readOnly_getBoard b).respects t
  obtain ⟨b', db₁, hinsert, h⟩ := bind_ok.mp (transaction_ok.mp h)
  obtain ⟨_, db₂, hseed, h⟩ := bind_ok.mp h
  obtain ⟨_, db₃, hselect, h⟩ := bind_ok.mp h
  obtain ⟨rfl, rfl⟩ := pure_ok.mp h
  have hinserted := entersDb_insertBoard hP (rejectDuplicate_ok.mp hinsert)
  have hseeded := (respects_enters (keeps_seedTodoTx columnBlind_sites _)).ok hseed
  exact hinserted.trans
    (hseeded.trans ((respects_enters (keeps_selectTx pickerBlind_sites _ _)).ok hselect))

end HerdrBoard.Core
