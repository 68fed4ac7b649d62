import HerdrBoard.Projects.Selection
import HerdrBoard.Daemon.Projects
import HerdrBoard.Core.Lemmas.Frames

/-!
# The context stays valid

The selected project is active and remembers an active board of its own, and the recency lists are
ranked from 0 with the selection first. -/

open Lib HerdrBoard.Core HerdrBoard.Daemon

namespace HerdrBoard.Projects

variable {t t' : Tables} {P b : Int}

def ActiveBoard (t : Tables) (P b : Int) : Prop :=
  ∃ r ∈ t.boards, r.id = b ∧ r.projectId = P ∧ r.archivedAt = none

def ActiveProject (t : Tables) (P : Int) : Prop := ∃ r ∈ t.projects, r.id = P ∧ r.archivedAt = none

/-- The recency lists are ranked, and the boards among the recent ones are the project's own. -/
structure Listed (t : Tables) : Prop where
  recents : ∀ r ∈ t.boardRecents, ∃ b ∈ t.boards, b.id = r.2.1 ∧ b.projectId = r.1
  projectRanks : Ranked t.projectRecents
  boardRanks : ∀ P, Ranked ((t.boardRecents.filter fun r => r.1 == P).map Prod.snd)

structure ContextOk (t : Tables) : Prop extends Listed t where
  remembered : ∀ s ∈ t.boardSelection, ActiveProject t s.1 ∧ ActiveBoard t s.1 s.2
  selected : ∀ P, t.selection = some P → ∃ s ∈ t.boardSelection, s.1 = P
  first : ∀ P, t.selection = some P →
    (P, 0) ∈ t.projectRecents ∧ ∀ s ∈ t.boardSelection, s.1 = P → (P, s.2, 0) ∈ t.boardRecents

/-- Projects and boards come in and change, as long as those that are remembered stay active. -/
theorem ContextOk.mono (h : ContextOk t) (hpicker : t'.picker = t.picker)
    (hboards : ∀ b ∈ t.boards, ∃ b' ∈ t'.boards, b'.id = b.id ∧ b'.projectId = b.projectId)
    (hremembered : ∀ s ∈ t.boardSelection, ActiveProject t' s.1 ∧ ActiveBoard t' s.1 s.2) :
    ContextOk t' := by
  have hselection : t'.selection = t.selection := congrArg Picker.selection hpicker
  have hrows : t'.boardSelection = t.boardSelection := congrArg Picker.boardSelection hpicker
  have hprojects : t'.projectRecents = t.projectRecents := congrArg Picker.projectRecents hpicker
  have hrecents : t'.boardRecents = t.boardRecents := congrArg Picker.boardRecents hpicker
  refine ⟨⟨?_, hprojects ▸ h.projectRanks, hrecents ▸ h.boardRanks⟩, hrows ▸ hremembered, ?_, ?_⟩
  · rw [hrecents]
    intro r hr
    obtain ⟨b, hb, hid, hproject⟩ := h.recents r hr
    obtain ⟨b', hb', hid', hproject'⟩ := hboards b hb
    exact ⟨b', hb', hid'.trans hid, hproject'.trans hproject⟩
  · rw [hselection, hrows]
    exact h.selected
  · rw [hselection, hrows, hprojects, hrecents]
    exact h.first

theorem filter_touchBoard (p : Picker) (P b Q : Int) :
    ((p.touchBoard P b).boardRecents.filter fun r => r.1 == Q).map Prod.snd =
      if Q = P then touchRecency (p.recentBoards P) b
        else (p.boardRecents.filter fun r => r.1 == Q).map Prod.snd := by
  simp only [Picker.touchBoard, List.filter_append, List.map_append, List.filter_filter,
    List.filter_map, List.map_map]
  split
  next hQ =>
    subst hQ
    have hnone : p.boardRecents.filter (fun r => r.1 == Q && r.1 != Q) = [] :=
      List.filter_eq_nil_iff.mpr fun r _ => by simp
    rw [hnone]
    simp [Function.comp]
  next hQ =>
    have hsome : ∀ r : Int × Int × Int, (r.1 == Q && r.1 != P) = (r.1 == Q) := by
      intro r
      by_cases hr : r.1 = Q <;> simp [hr, hQ]
    have hne : (P == Q) = false := by simpa using fun h : P = Q => hQ h.symm
    simp [hsome, Function.comp, hne]

/-- Selecting an active board of an active project. -/
theorem Listed.choose {p : Picker} (h : Listed (t.withPicker p)) (hp : p.Ok t)
    (hothers : ∀ s ∈ p.boardSelection, s.1 ≠ P → ActiveProject t s.1 ∧ ActiveBoard t s.1 s.2)
    (hproject : ActiveProject t P) (hboard : ActiveBoard t P b) :
    ContextOk (t.withPicker (p.choose P b)) where
  recents r hr := by
    rcases Picker.mem_touchBoard (p :=
        ({ p with selection := some P }.remember P b).touchProject P) hr with
      ⟨-, hr⟩ | ⟨hP, hr⟩
    · exact h.recents r hr
    · rcases mem_touchRecency hr with hb | hr
      · obtain ⟨r', hr', hid, hproject', -⟩ := hboard
        exact ⟨r', hr', hid.trans hb.symm, hproject'.trans hP.symm⟩
      · obtain ⟨r', hr', hrP, hrb⟩ := Picker.mem_recentBoards.mp hr
        obtain ⟨b', hb', hid, hproject'⟩ := h.recents r' hr'
        exact ⟨b', hb', hid.trans hrb, hproject'.trans (hrP.trans hP.symm)⟩
  projectRanks := ranked_touchRecency hp.recentProjects P
  boardRanks Q := by
    have hfilter := filter_touchBoard
      (({ p with selection := some P }.remember P b).touchProject P) P b Q
    refine hfilter ▸ ?_
    split
    · exact ranked_touchRecency (hp.recentBoards P) b
    · exact h.boardRanks Q
  remembered s hs := by
    rcases Picker.mem_remember (p := { p with selection := some P }) hs with rfl | ⟨hne, hs⟩
    · exact ⟨hproject, hboard⟩
    · exact hothers s hs hne
  selected Q hQ := by
    cases hQ
    have hremembered : (p.choose P b).remembered P = some b := by simp
    exact ⟨(P, b), Picker.mem_of_remembered hremembered, rfl⟩
  first Q hQ := by
    cases hQ
    refine ⟨first_touchRecency _ P, fun s hs hsP => ?_⟩
    have hsb : s.2 = b := by
      rcases Picker.mem_remember (p := { p with selection := some P }) hs with rfl | ⟨hne, -⟩
      · rfl
      · exact absurd hsP hne
    rw [hsb]
    exact List.mem_append_right _ (List.mem_map.mpr ⟨(b, 0), first_touchRecency _ b, rfl⟩)

variable {db db' db₁ : Db} {conn : Conn} {board : Board} {project : Project}

theorem activeBoard_of_mem (h : board ∈ db.activeBoards P) :
    ActiveBoard db.toTables P board.id := by
  obtain ⟨hmem, hproject, hactive⟩ := mem_activeBoards.mp h
  exact ⟨board, hmem, rfl, hproject, hactive⟩

theorem ActiveBoard.board? (h : ActiveBoard db.toTables P b) :
    ∃ r, db.board? b = some r ∧ r.projectId = P ∧ r.archivedAt = none := by
  obtain ⟨r, hr, rfl, hproject, hactive⟩ := h
  exact ⟨r, Table.find?_key hr, hproject, hactive⟩

theorem activeProject_of_find {p : Project} (h : db.project? P = some p)
    (hp : p.archivedAt = none) :
    ActiveProject db.toTables P := ⟨p, Table.mem_of_find? h, Table.key_of_find? h, hp⟩

theorem hasBoard_of_active (h : ActiveBoard db.toTables P b) : db.hasBoard b := by
  obtain ⟨r, hr, rfl, -⟩ := h
  exact hasBoard_of_mem hr

theorem hasProject_of_active (h : ActiveProject db.toTables P) : db.hasProject P := by
  obtain ⟨r, hr, rfl, -⟩ := h
  exact hasProject_of_mem hr

/-- Selecting an active board of an active project, from a valid context. -/
theorem ContextOk.choose (h : ContextOk db.toTables) (hproject : ActiveProject db.toTables P)
    (hboard : ActiveBoard db.toTables P b) :
    ContextOk (db.toTables.withPicker (db.picker.choose P b)) :=
  Listed.choose (p := db.picker) h.toListed (picker_ok db)
    (fun s hs _ => h.remembered s hs) hproject hboard

/-! ## The fallback project -/

theorem activeProject_of_fallback (h : db.findActiveProjectFallback conn = some P) :
    ActiveProject db.toTables P := by
  obtain ⟨p, hp⟩ := Option.isSome_iff_exists.mp (hasProject_of_fallback h)
  have hactive := List.find?_some h
  simp only [Db.isActiveProject, Bool.and_eq_true] at hactive
  refine activeProject_of_find hp ?_
  simpa [Db.project?, hp, Option.isNone_iff_eq_none] using hactive.1

/-- A selection moves to an active context, or is dropped. -/
theorem contextOk_fallback {p : Picker} (hp : p.Ok db.toTables)
    (hlisted : Listed (db.toTables.withPicker p))
    (hrows : ∀ s ∈ p.boardSelection, ActiveProject db.toTables s.1 ∧
      ActiveBoard db.toTables s.1 s.2) :
    ContextOk (db.toTables.withPicker (fallbackContext db conn p)) := by
  have hnone : ContextOk (db.toTables.withPicker { p with selection := none }) :=
    { recents := hlisted.recents
      projectRanks := hlisted.projectRanks
      boardRanks := hlisted.boardRanks
      remembered := hrows
      selected := fun P hP => by cases hP
      first := fun P hP => by cases hP }
  unfold fallbackContext
  cases hpid : db.findActiveProjectFallback conn with
  | none => exact hnone
  | some pid =>
      simp only
      cases hhead : (db.activeBoards pid).head? with
      | none => exact hnone
      | some first =>
          exact hlisted.choose hp (fun s hs _ => hrows s hs) (activeProject_of_fallback hpid)
            (activeBoard_of_mem (List.mem_of_head? hhead))

/-! ## Archiving and restoring -/

theorem ContextOk.archiveProject (h : ContextOk db.toTables) (conn : Conn) (P : Int)
    (archived : Bool) (hempty : archived = true → db.activeBoards P = []) :
    ContextOk (archiveProject db.toTables conn P archived) := by
  refine h.mono rfl (fun b hb => ⟨b, hb, rfl, rfl⟩) fun s hs => ?_
  obtain ⟨⟨r, hr, hid, hactive⟩, hboard⟩ := h.remembered s hs
  refine ⟨?_, hboard⟩
  by_cases hP : r.id = P
  · cases archived with
    | false => exact ⟨_, mem_archiveProject.mpr ⟨r, hr, rfl⟩, by simp [hP, hid ▸ hP], by simp [hP]⟩
    | true =>
        -- a project that remembers a board has an active one
        obtain ⟨b, hb, hbid, hproject, hbactive⟩ := hboard
        have hmem : b ∈ db.activeBoards P :=
          mem_activeBoards.mpr ⟨hb, hproject.trans (hid.symm.trans hP), hbactive⟩
        rw [hempty rfl] at hmem
        cases hmem
  · exact ⟨r, mem_archiveProject.mpr ⟨r, hr, by simp [hP]⟩, hid, hactive⟩

theorem ContextOk.restoreBoard (h : ContextOk db.toTables) (conn : Conn) (b : Int) :
    ContextOk (archiveBoard db.toTables conn b false) := by
  have hkept : ∀ r ∈ db.boards, ∃ r' ∈ (archiveBoard db.toTables conn b false).boards,
      r'.id = r.id ∧ r'.projectId = r.projectId ∧ (r.archivedAt = none → r'.archivedAt = none) := by
    intro r hr
    refine ⟨_, mem_archiveBoard.mpr ⟨r, hr, rfl⟩, ?_⟩
    split <;> simp
  refine h.mono rfl (fun r hr => ?_) fun s hs => ?_
  · obtain ⟨r', hr', hid, hproject, -⟩ := hkept r hr
    exact ⟨r', hr', hid, hproject⟩
  · obtain ⟨hproject, r, hr, hid, hrP, hactive⟩ := h.remembered s hs
    obtain ⟨r', hr', hid', hrP', hactive'⟩ := hkept r hr
    exact ⟨hproject, r', hr', hid'.trans hid, hrP'.trans hrP, hactive' hactive⟩

section ArchiveBoard

variable (hb : db.board? board.id = some board)
    (h₁ : db₁.toTables = archiveBoard db.toTables conn board.id true)

include hb h₁

/-- The other memories survive the archiving of a board. -/
theorem remembers_archived (h : ContextOk db.toTables) {s : Int × Int} (hs : s ∈ db.boardSelection)
    (hne : s ≠ (board.projectId, board.id)) : ActiveProject db₁.toTables s.1 ∧
    ActiveBoard db₁.toTables s.1 s.2 := by
  obtain ⟨hproject, r, hr, hid, hrP, hactive⟩ := h.remembered s hs
  have hrb : r.id ≠ board.id := by
    intro heq
    have hrow := Table.eq_of_key_eq hr (Table.mem_of_find? hb) heq
    exact hne (Prod.ext (hrP.symm.trans (congrArg Board.projectId hrow)) (hid.symm.trans heq))
  rw [h₁]
  exact ⟨hproject, r, mem_archiveBoard.mpr ⟨r, hr, by simp [hrb]⟩, hid, hrP, hactive⟩

omit hb in
theorem listed_archived (h : ContextOk db.toTables) : Listed db₁.toTables := by
  rw [h₁]
  refine ⟨fun r hr => ?_, h.projectRanks, h.boardRanks⟩
  obtain ⟨b', hb', hid, hproject⟩ := h.recents r hr
  refine ⟨_, mem_archiveBoard.mpr ⟨b', hb', rfl⟩, ?_⟩
  split <;> exact ⟨hid, hproject⟩

omit hb in
theorem activeBoard_of_fallbackBoard (h : ContextOk db.toTables) {fallback : Int}
    (hfallback : db₁.fallbackBoard board.projectId board.id = some fallback) :
    ActiveBoard db₁.toTables board.projectId fallback := by
  unfold Db.fallbackBoard at hfallback
  split at hfallback
  next id hrecent =>
    cases hfallback
    obtain ⟨r, hr, hrP, rfl⟩ := Picker.mem_recentBoards.mp
      (show fallback ∈ db₁.picker.recentBoards
        board.projectId from List.mem_of_find?_eq_some hrecent)
    obtain ⟨b', hb', hid, hproject⟩ := (listed_archived h₁ h).recents r hr
    have hactive := List.find?_some hrecent
    have hfind : db₁.board? r.2.1 = some b' := hid ▸ Table.find?_key hb'
    simp only [hfind, Option.all_some, Bool.and_eq_true, Option.isNone_iff_eq_none] at hactive
    exact ⟨b', hb', hid, hproject.trans hrP, hactive.2⟩
  next =>
    obtain ⟨b', hb', rfl⟩ := Option.map_eq_some_iff.mp hfallback
    exact activeBoard_of_mem (List.mem_of_head? hb')

theorem contextOk_reselected (h : ContextOk db.toTables) :
    ContextOk (db₁.toTables.withPicker (reselected db₁ conn board.projectId board.id)) := by
  have hpicker := picker_archived h₁
  have hlisted := listed_archived h₁ h
  have hselected : db₁.selectedBoardIdFor board.projectId = db.picker.remembered board.projectId :=
    congrArg (fun p : Picker => p.remembered board.projectId) hpicker
  have hrows : db₁.boardSelection = db.boardSelection := congrArg Picker.boardSelection hpicker
  unfold reselected
  split
  next hremembered =>
    rw [hselected] at hremembered
    have hrow := Picker.mem_of_remembered hremembered
    have hothers : ∀ s ∈ db₁.boardSelection, s.1 ≠ board.projectId →
        ActiveProject db₁.toTables s.1 ∧ ActiveBoard db₁.toTables s.1 s.2 := by
      intro s hs hne
      exact remembers_archived hb h₁ h (hrows ▸ hs) fun heq => hne (congrArg Prod.fst heq)
    have hforgotten : ∀ s ∈ (db₁.picker.forget board.projectId).boardSelection,
        ActiveProject db₁.toTables s.1 ∧ ActiveBoard db₁.toTables s.1 s.2 := by
      intro s hs
      obtain ⟨hs, hne⟩ := List.mem_filter.mp hs
      exact hothers s hs (by simpa using hne)
    cases hfallback : db₁.fallbackBoard board.projectId board.id with
    | some fallback =>
        have hproject : ActiveProject db₁.toTables board.projectId := by
          rw [h₁]
          exact (h.remembered _ hrow).1
        exact Listed.choose (p := db₁.picker) hlisted (picker_ok db₁) hothers hproject
          (activeBoard_of_fallbackBoard h₁ h hfallback)
    | none =>
        simp only
        split
        · exact contextOk_fallback ((picker_ok db₁).forget _)
            ⟨hlisted.recents, hlisted.projectRanks, hlisted.boardRanks⟩ hforgotten
        next hselection =>
          have hkept : ∀ s ∈ (db₁.picker.forget board.projectId).boardSelection,
              s ∈ db.boardSelection :=
            fun s hs => hrows ▸ List.mem_of_mem_filter hs
          have hsame : db₁.selection = db.selection := congrArg Picker.selection hpicker
          have hranks : db₁.picker = db.picker := hpicker
          refine ⟨⟨hlisted.recents, hlisted.projectRanks, hlisted.boardRanks⟩, hforgotten,
            fun Q hQ => ?_, fun Q hQ => ?_⟩
          · have hQ : db₁.selection = some Q := hQ
            obtain ⟨s, hs, hsQ⟩ := h.selected Q (hsame ▸ hQ)
            have hne : s.1 ≠ board.projectId := fun heq => hselection (by rw [hQ, ← hsQ, heq])
            have hmem : s ∈ db₁.boardSelection := by rwa [hrows]
            exact ⟨s, List.mem_filter.mpr ⟨hmem, by simpa using hne⟩, hsQ⟩
          · have hQ : db₁.selection = some Q := hQ
            obtain ⟨hfirst, hboards⟩ := h.first Q (hsame ▸ hQ)
            have hprojects : db₁.projectRecents = db.projectRecents :=
              congrArg Picker.projectRecents hpicker
            have hrecents : db₁.boardRecents = db.boardRecents :=
              congrArg Picker.boardRecents hpicker
            exact ⟨hprojects.symm ▸ hfirst,
              fun s hs hsQ => hrecents.symm ▸ hboards s (hkept s hs) hsQ⟩
  next hremembered =>
    have hok : ContextOk db₁.toTables := by
      refine h.mono hpicker (fun b' hb' => ?_) fun s hs => remembers_archived hb h₁ h hs ?_
      · rw [h₁]
        refine ⟨_, mem_archiveBoard.mpr ⟨b', hb', rfl⟩, ?_⟩
        split <;> exact ⟨rfl, rfl⟩
      · rintro rfl
        exact hremembered (hselected.trans (Picker.remembered_of_mem (picker_ok db) hs))
    exact hok

end ArchiveBoard

end HerdrBoard.Projects
