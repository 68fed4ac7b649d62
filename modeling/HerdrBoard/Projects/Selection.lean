import HerdrBoard.Projects.Archiving
import HerdrBoard.Lib.Sorting
import HerdrBoard.Lifecycle.Theorems

/-!
# When archiving leaves the selection alone

Archiving a board moves the selection when its project remembers it, whether or not the project
is the selected one, and a fallback project is selected with its first active board, whatever
it remembers. -/

open Lib HerdrBoard.Core

namespace HerdrBoard.Projects

/-- The project has another board to remember. -/
def otherBoard (db : Db) (projectId boardId : Int) : Bool :=
  ((db.recentBoardIds projectId).any fun id => id != boardId && (db.board? id).all fun b =>
    b.archivedAt.isNone) || (db.activeBoards projectId).any fun b => b.id != boardId

/-- The project to select once `projectId` has no active board. -/
def fallbackProject (db : Db) (conn : Conn) (projectId : Int) : Option Int :=
  (db.recentProjectIds ++ (db.projectsByPath conn).map Project.id).find? fun id =>
    id != projectId && db.isActiveProject id

def firstBoard (db : Db) (projectId : Int) : Option Int :=
  (db.activeBoards projectId).head?.map Board.id

def isActiveBoard (db : Db) (boardId : Int) : Bool :=
  (db.board? boardId).any fun b => b.archivedAt.isNone

/-- Archiving a board moves the selection off that board only, and leaves what other
projects remember. -/
structure KeepsSelection (board : Board) (db db' : Db) : Prop where
  selection : db'.selection ≠ db.selection →
    db.selection = some board.projectId ∧ db.selectedBoardIdFor board.projectId = some board.id
  others : ∀ Q, Q ≠ board.projectId → db'.selectedBoardIdFor Q = db.selectedBoardIdFor Q

/-- Archiving a project moves the selection off that project only, to the board that the next
one remembers. -/
structure KeepsContext (project : Project) (db db' : Db) : Prop where
  selection : db'.selection ≠ db.selection → db.selection = some project.id
  lands : ∀ Q, db'.selection = some Q → db.selection ≠ some Q →
    ∀ b, db.selectedBoardIdFor Q = some b →
    isActiveBoard db b = true → db'.selectedBoardIdFor Q = some b

/-- The board stays as it is, or its project does not remember it, or it has another board and is
the selected project, or none and the project to select next already remembers its first board. -/
def BoardQuiet (db : Db) (conn : Conn) (board : Board) : Prop :=
  BoardStays db board true ∨ db.selectedBoardIdFor board.projectId ≠ some board.id ∨
    if otherBoard db board.projectId board.id then db.selection = some board.projectId
    else db.selection = some board.projectId →
      ∀ Q, fallbackProject db conn board.projectId = some Q →
      db.selectedBoardIdFor Q = firstBoard db Q

/-- The project stays as it is or is restored, or it is not selected, or the project to select next
remembers its first board or no active one. -/
def ProjectQuiet (db : Db) (conn : Conn) (project : Project) (archived : Bool) : Prop :=
  ProjectStays db project archived ∨ archived = false ∨ db.selection ≠ some project.id ∨
    ∀ Q, fallbackProject db conn project.id = some Q → ∀ b, db.selectedBoardIdFor Q = some b →
      isActiveBoard db b = true → firstBoard db Q = some b

variable {db db' db₁ : Db} {conn : Conn} {board : Board} {project : Project} {p : Picker}

/-! ## Once the board is archived -/

section Board

variable (hb : db.board? board.id = some board)
    (h₁ : db₁.toTables = archiveBoard db.toTables conn board.id true)

include h₁

theorem picker_archived : db₁.picker = db.picker := by
  rw [h₁]
  rfl

theorem boards_archived : db₁.boards = (archiveBoard db.toTables conn board.id true).boards :=
  congrArg (fun t : Tables => t.boards) h₁

theorem board?_archived (id : Int) : db₁.board? id =
    (db.board? id).map fun b =>
      if b.id == board.id then { b with archivedAt := some conn.now } else b := by
  simp only [Db.board?, boards_archived h₁, archiveBoard, Table.find?_update]
  rfl

theorem activeBoards_archived (Q : Int) :
    db₁.activeBoards Q = (db.activeBoards Q).filter fun b => b.id != board.id := by
  simp only [Db.activeBoards, boards_archived h₁, archiveBoard]
  exact Table.select_update_of_not fun r _ => by simp

include hb in
theorem activeBoards_archived_of_ne {Q : Int} (hQ : Q ≠ board.projectId) :
    db₁.activeBoards Q = db.activeBoards Q := by
  rw [activeBoards_archived h₁, List.filter_eq_self]
  intro b hmem
  obtain ⟨hmem, hproject, -⟩ := mem_activeBoards.mp hmem
  have hne : b.id ≠ board.id := by
    intro hid
    have heq := Table.eq_of_key_eq hmem (Table.mem_of_find? hb) hid
    exact hQ (hproject.symm.trans (congrArg Board.projectId heq))
  simpa using hne

/-- The archived board is remembered no more, and nothing else about recent boards changed. -/
theorem fallbackBoard_archived (P : Int) :
    (db₁.fallbackBoard P board.id).isSome = otherBoard db P board.id := by
  have hrecents : db₁.recentBoardIds P = db.recentBoardIds P :=
    congrArg (fun p : Picker => p.recentBoards P) (picker_archived h₁)
  have hkeep : ∀ id, (id != board.id && (db₁.board? id).all fun b => b.archivedAt.isNone) =
      (id != board.id && (db.board? id).all fun b => b.archivedAt.isNone) := by
    intro id
    by_cases hid : id = board.id
    · simp [hid]
    · rw [board?_archived h₁]
      cases hfind : db.board? id with
      | none => rfl
      | some b =>
          have hb : b.id ≠ board.id := fun h => hid ((Table.key_of_find? hfind).symm.trans h)
          simp [hb]
  unfold Db.fallbackBoard otherBoard
  rw [hrecents, funext hkeep, activeBoards_archived h₁]
  cases hfind : (db.recentBoardIds P).find? fun id => id != board.id && (db.board? id).all fun b =>
      b.archivedAt.isNone with
  | some id =>
      have hany := List.any_eq_true.mpr ⟨id, List.mem_of_find?_eq_some hfind, List.find?_some hfind⟩
      simp only [Option.isSome_some, hany, Bool.true_or]
  | none =>
      have hany := List.find?_eq_none.mp hfind
      have hnone : ((db.recentBoardIds P).any fun id => id != board.id &&
          (db.board? id).all fun b => b.archivedAt.isNone) =
          false := List.any_eq_false.mpr hany
      simp only [hnone, Bool.false_or, Option.isSome_map]
      rw [Bool.eq_iff_iff]
      simp

include hb in
theorem findActiveProjectFallback_archived
    (hother : otherBoard db board.projectId board.id = false) :
    db₁.findActiveProjectFallback conn = fallbackProject db conn board.projectId := by
  have hprojects : db₁.projects = db.projects := by
    rw [h₁]
    rfl
  have hrecents : db₁.recentProjectIds = db.recentProjectIds :=
    congrArg Picker.recentProjects (picker_archived h₁)
  have hactive : db₁.isActiveProject = fun id =>
      id != board.projectId && db.isActiveProject id := by
    funext id
    simp only [Db.isActiveProject, Db.project?, hprojects]
    by_cases hid : id = board.projectId
    · have hempty : db₁.activeBoards board.projectId = [] := by
        rw [activeBoards_archived h₁, List.filter_eq_nil_iff]
        intro b hmem hne
        have := (Bool.or_eq_false_iff.mp hother).2
        exact List.any_eq_false.mp this b hmem hne
      simp [hid, hempty]
    · simp [hid, activeBoards_archived_of_ne hb h₁ hid]
  simp only [Db.findActiveProjectFallback, fallbackProject, Db.projectsByPath, hprojects,
    hrecents, hactive]

end Board

/-! ## Archiving a board -/

theorem selection_of_picker (h : db'.toTables = db₁.toTables.withPicker p) :
    db'.selection = p.selection := by
  rw [h]
  rfl

theorem remembered_of_picker (h : db'.toTables = db₁.toTables.withPicker p) (Q : Int) :
    db'.selectedBoardIdFor Q = p.remembered Q := by
  have hrows : db'.boardSelection = p.boardSelection := by
    rw [h]
    rfl
  simp only [Db.selectedBoardIdFor, hrows]
  rfl

/-- A selection with the same memories but one. -/
theorem keepsSelection_of_forget {p : Picker}
    (hp : p.boardSelection = (db.picker.forget board.projectId).boardSelection)
    (h : db'.toTables = db₁.toTables.withPicker p)
    (hselection : p.selection ≠ db.selection → db.selection = some board.projectId ∧
      db.selectedBoardIdFor board.projectId = some board.id) : KeepsSelection board db db' where
  selection hne := hselection (by rwa [selection_of_picker h] at hne)
  others Q hQ := by
    have hforget : p.remembered Q = (db.picker.forget board.projectId).remembered Q := by
      simp only [Picker.remembered, hp]
    rw [remembered_of_picker h, hforget, Picker.remembered_forget, if_neg hQ]
    rfl

theorem board_archive_keeps_iff (hb : db.board? board.id = some board) :
    KeepsSelection board db (finalState (setBoardArchived conn board.id true db)) ↔
      BoardQuiet db conn board := by
  by_cases hstays : BoardStays db board true
  · rw [board_stays hb hstays]
    exact ⟨fun _ => .inl hstays, fun _ => ⟨fun h => absurd rfl h, fun _ _ => rfl⟩⟩
  obtain ⟨db₁, h₁, htab⟩ := board_archives conn hb hstays
  simp only [↓reduceIte, reselected] at htab
  have hpicker := picker_archived h₁
  have hsel₁ : ∀ Q, db₁.selectedBoardIdFor Q = db.selectedBoardIdFor Q := fun Q =>
    congrArg (fun p : Picker => p.remembered Q) hpicker
  have hselection₁ : db₁.selection = db.selection := congrArg Picker.selection hpicker
  rw [hsel₁, hselection₁, hpicker] at htab
  generalize finalState (setBoardArchived conn board.id true db) = db' at htab ⊢
  by_cases hremembered : db.selectedBoardIdFor board.projectId = some board.id
  swap
  · rw [if_neg hremembered] at htab
    refine ⟨fun _ => .inr (.inl hremembered),
      fun _ => ⟨fun h => ?_, fun Q _ => remembered_of_picker htab Q⟩⟩
    exact absurd (selection_of_picker htab) h
  rw [if_pos hremembered] at htab
  simp only [BoardQuiet, hstays, false_or, hremembered, ne_eq, not_true_eq_false]
  have hfallback := fallbackBoard_archived h₁ board.projectId
  cases hother : otherBoard db board.projectId board.id with
  | true =>
      rw [hother] at hfallback
      obtain ⟨fallback, hfallback⟩ := Option.isSome_iff_exists.mp hfallback
      simp only [hfallback] at htab
      simp only [↓reduceIte]
      constructor
      · intro hkeeps
        by_contra hne
        refine hne (hkeeps.selection ?_).1
        rw [selection_of_picker htab]
        exact fun h => hne h.symm
      · intro hselected
        refine ⟨fun _ => ⟨hselected, hremembered⟩, fun Q hQ => ?_⟩
        rw [remembered_of_picker htab, Picker.remembered_choose, if_neg hQ]
        rfl
  | false =>
      rw [hother, Option.isSome_eq_false_iff, Option.isNone_iff_eq_none] at hfallback
      simp only [hfallback] at htab
      simp only [Bool.false_eq_true, ↓reduceIte]
      by_cases hselected : db.selection = some board.projectId
      swap
      · rw [if_neg hselected] at htab
        refine ⟨fun _ h => absurd h hselected,
          fun _ => keepsSelection_of_forget rfl htab fun h => absurd rfl h⟩
      rw [if_pos hselected, fallbackContext, findActiveProjectFallback_archived hb h₁ hother]
        at htab
      cases hproject : fallbackProject db conn board.projectId with
      | none =>
          simp only [hproject] at htab
          simp only [reduceCtorEq, false_implies, implies_true, iff_true]
          exact keepsSelection_of_forget (p :=
            { db.picker.forget board.projectId with selection := none }) rfl htab
            fun _ => ⟨hselected, hremembered⟩
      | some pid =>
          simp only [hproject] at htab
          have hfound := List.find?_some hproject
          simp only [Db.isActiveProject, Bool.and_eq_true, bne_iff_ne, ne_eq, Bool.not_eq_eq_eq_not,
            Bool.not_true, List.isEmpty_eq_false_iff] at hfound
          obtain ⟨hpid, -, hboards⟩ := hfound
          rw [activeBoards_archived_of_ne hb h₁ hpid] at htab
          obtain ⟨first, hfirst⟩ := Option.isSome_iff_exists.mp (List.isSome_head?.mpr hboards)
          simp only [hfirst] at htab
          have hfirstBoard : firstBoard db pid = some first.id := by simp [firstBoard, hfirst]
          simp only [hselected, Option.some.injEq, forall_eq', true_implies, hfirstBoard]
          constructor
          · intro hkeeps
            have hsame := hkeeps.others pid hpid
            rw [remembered_of_picker htab, Picker.remembered_choose, if_pos rfl] at hsame
            exact hsame.symm
          · intro hsame
            refine ⟨fun _ => ⟨hselected, hremembered⟩, fun Q hQ => ?_⟩
            rw [remembered_of_picker htab, Picker.remembered_choose,
              Picker.remembered_forget, if_neg hQ]
            split
            next heq => rw [heq, hsame]
            next => rfl

/-! ## Archiving a project -/

section Project

variable {scopePath : String} (h₁ : db₁.toTables = archiveProject db.toTables conn project.id true)

/-- The order of the deterministic fallback. -/
def pathOrder (conn : Conn) (a b : Project) : Prop :=
  a.scopePath.isSome ∧ b.scopePath.isNone ∨
    a.scopePath.isSome = b.scopePath.isSome ∧
      conn.toLowercase (a.scopePath.getD "") ≤ conn.toLowercase (b.scopePath.getD "")

instance (conn : Conn) : DecidableRel (pathOrder conn) :=
  fun _ _ => inferInstanceAs (Decidable (_ ∨ _))

instance (conn : Conn) : IsTrans Project (pathOrder conn) where
  trans a b c hab hbc := by
    rcases hab with ⟨ha, hb⟩ | ⟨hab, hle⟩
    · rcases hbc with ⟨hb', -⟩ | ⟨hbc, -⟩
      · rw [Option.isNone_iff_eq_none] at hb
        simp [hb] at hb'
      · exact .inl ⟨ha, by simp_all⟩
    · rcases hbc with ⟨hb, hc⟩ | ⟨hbc, hle'⟩
      · exact .inl ⟨hab.trans hb, hc⟩
      · exact .inr ⟨hab.trans hbc, String.le_trans hle hle'⟩

instance (conn : Conn) : Std.Total (pathOrder conn) where
  total a b := by
    cases ha : a.scopePath with
    | none => cases hb : b.scopePath <;> simp [pathOrder, ha, hb]
    | some s => cases hb : b.scopePath <;> simp [pathOrder, ha, hb, String.le_total]

theorem projectsByPath_eq (db : Db) (conn : Conn) : db.projectsByPath conn =
    (db.projects.select fun p => p.archivedAt.isNone).insertionSort (pathOrder conn) := rfl

include h₁

theorem projects_archived :
    db₁.projects = (archiveProject db.toTables conn project.id true).projects :=
  congrArg (fun t : Tables => t.projects) h₁

theorem projectsByPath_archived :
    db₁.projectsByPath conn = (db.projectsByPath conn).filter fun p => p.id != project.id := by
  simp only [projectsByPath_eq, filter_insertionSort, projects_archived h₁, archiveProject]
  congr 1
  exact Table.select_update_of_not fun r _ => rfl

theorem isActiveProject_archived (hp : project ∈ db.projects) :
    db₁.isActiveProject = fun id => id != project.id && db.isActiveProject id := by
  have hboards : db₁.boards = db.boards := by
    rw [h₁]
    rfl
  funext id
  simp only [Db.isActiveProject, Db.activeBoards, hboards, Db.project?, projects_archived h₁,
    archiveProject, Table.find?_update]
  by_cases hid : id = project.id
  · have hfind : db.projects.find? project.id = some project := Table.find?_key hp
    simp [hid, hfind]
  · cases hfind : db.projects.find? id with
    | none => simp [hid]
    | some p =>
        have hne : p.id ≠ project.id := fun h => hid ((Table.key_of_find? hfind).symm.trans h)
        simp [hid, hne]

theorem findActiveProjectFallback_archivedProject (hp : project ∈ db.projects) :
    db₁.findActiveProjectFallback conn = fallbackProject db conn project.id := by
  have hrecents : db₁.recentProjectIds = db.recentProjectIds := by
    simp only [Db.recentProjectIds, h₁]
    rfl
  have hids : (db₁.projectsByPath conn).map Project.id =
      ((db.projectsByPath conn).map Project.id).filter fun id => id != project.id := by
    rw [projectsByPath_archived h₁, List.filter_map]
    rfl
  simp only [Db.findActiveProjectFallback, fallbackProject, hrecents, hids,
    isActiveProject_archived h₁ hp, List.find?_append, List.find?_filter]
  congr 2
  funext id
  cases id != project.id <;> simp

end Project

theorem project_archive_keeps_iff {scopePath : String}
    (hp : db.projectByScope scopePath = some project)
    (archived : Bool) : KeepsContext project db
      (finalState (setProjectArchived conn scopePath archived db)) ↔
      ProjectQuiet db conn project archived := by
  by_cases hstays : ProjectStays db project archived
  · rw [project_stays hp hstays]
    exact ⟨fun _ => .inl hstays, fun _ => ⟨fun h => absurd rfl h, fun Q h h' => absurd h h'⟩⟩
  have hmem : project ∈ db.projects := (Table.mem_select.mp (List.mem_of_head? hp)).1
  obtain ⟨db₁, h₁, htab⟩ := project_archives conn hp hstays
  have hpicker : db₁.picker = db.picker := by
    rw [h₁]
    rfl
  rw [hpicker] at htab
  generalize finalState (setProjectArchived conn scopePath archived db) = db' at htab ⊢
  simp only [ProjectQuiet, hstays, false_or]
  by_cases hmoves : archived = true ∧ db.selection = some project.id
  swap
  · rw [if_neg hmoves] at htab
    have hselection : db'.selection = db.selection := selection_of_picker htab
    refine ⟨fun _ => ?_,
      fun _ => ⟨fun h => absurd hselection h, fun Q h h' => absurd (hselection ▸ h) h'⟩⟩
    cases archived with
    | false => exact .inl rfl
    | true => exact .inr (.inl fun h => hmoves ⟨rfl, h⟩)
  rw [if_pos hmoves] at htab
  obtain ⟨rfl, hselected⟩ := hmoves
  simp only [Bool.true_eq_false, hselected, ne_eq, not_true_eq_false, false_or]
  rw [fallbackContext, findActiveProjectFallback_archivedProject h₁ hmem] at htab
  cases hproject : fallbackProject db conn project.id with
  | none =>
      simp only [hproject] at htab
      simp only [reduceCtorEq, false_implies, implies_true, iff_true]
      refine ⟨fun _ => hselected, fun Q hQ => ?_⟩
      rw [selection_of_picker htab] at hQ
      cases hQ
  | some pid =>
      simp only [hproject] at htab
      have hfound := List.find?_some hproject
      simp only [Db.isActiveProject, Bool.and_eq_true, bne_iff_ne, ne_eq, Bool.not_eq_eq_eq_not,
        Bool.not_true, List.isEmpty_eq_false_iff] at hfound
      obtain ⟨hpid, -, hboards⟩ := hfound
      have hsame : db₁.activeBoards pid = db.activeBoards pid := by
        simp only [Db.activeBoards, h₁]
        rfl
      rw [hsame] at htab
      obtain ⟨first, hfirst⟩ := Option.isSome_iff_exists.mp (List.isSome_head?.mpr hboards)
      simp only [hfirst] at htab
      have hfirstBoard : firstBoard db pid = some first.id := by simp [firstBoard, hfirst]
      have hlanded : db'.selectedBoardIdFor pid = some first.id := by
        rw [remembered_of_picker htab, Picker.remembered_choose, if_pos rfl]
      simp only [Option.some.injEq, forall_eq', hfirstBoard]
      constructor
      · intro hkeeps b hb hactive
        have hland := hkeeps.lands pid (selection_of_picker htab) (fun h => hpid ?_) b hb hactive
        · rw [hlanded] at hland
          exact Option.some.inj hland
        · rw [hselected] at h
          exact (Option.some.inj h).symm
      · intro hquiet
        refine ⟨fun _ => hselected, fun Q hQ _ b hb hactive => ?_⟩
        rw [selection_of_picker htab] at hQ
        obtain rfl : pid = Q := Option.some.inj hQ
        rw [hlanded, hquiet b hb hactive]

theorem archiving_keeps_selection_iff (conn : Conn) (db : Db) :
    (∀ board, db.board? board.id = some board →
      (KeepsSelection board db (finalState (setBoardArchived conn board.id true db)) ↔
        BoardQuiet db conn board)) ∧
    ∀ scopePath project archived, db.projectByScope scopePath = some project →
      (KeepsContext project db (finalState (setProjectArchived conn scopePath archived db)) ↔
        ProjectQuiet db conn project archived) :=
  ⟨fun _ hb => board_archive_keeps_iff hb,
    fun _ _ archived hp => project_archive_keeps_iff hp archived⟩

/-- A project with two boards, remembering the second, while the Global project is selected. -/
def awayFromProject : Db :=
  finalState ((do
    let _ ← createProjectContext "/work/app"
    let _ ← createBoard 2 "side"
    let _ ← selectBoard 1
    pure () : StoreM Unit) Db.fresh)

def plainConn : Conn where
  now := "2026-01-01 00:00:00"
  toLowercase s := s

/-- Archiving a board of a project that is not selected selects the project. -/
theorem archive_steals_selection :
    ∃ board, awayFromProject.board? 3 = some board ∧ board.projectId = 2 ∧
    awayFromProject.selection = some 1 ∧
    (finalState (setBoardArchived plainConn 3 true awayFromProject)).selection = some 2 ∧
    ¬KeepsSelection board awayFromProject
      (finalState (setBoardArchived plainConn board.id true awayFromProject)) := by
  refine ⟨⟨3, 2, "side", none⟩, by decide, rfl, by decide, by decide, fun h => ?_⟩
  have hmoved : (finalState (setBoardArchived plainConn 3 true awayFromProject)).selection ≠
      awayFromProject.selection := by
    decide
  have hselected : awayFromProject.selection ≠ some 2 := by decide
  exact hselected (h.selection hmoved).1

end HerdrBoard.Projects
