import HerdrBoard.Core.Db.Projects
import HerdrBoard.Core.Lemmas.Reads

/-!
# What the pickers remember

The selected project, the board each project remembers, and the recent projects and boards, apart
from the projects and boards they name. -/

open Lib HerdrBoard.Core

namespace HerdrBoard.Projects

structure Picker where
  selection : Option Int
  boardSelection : List (Int × Int)
  projectRecents : List (Int × Int)
  boardRecents : List (Int × Int × Int)

end HerdrBoard.Projects

namespace HerdrBoard.Core.Tables

open Projects (Picker)

def picker (t : Tables) : Picker where
  selection := t.selection
  boardSelection := t.boardSelection
  projectRecents := t.projectRecents
  boardRecents := t.boardRecents

def withPicker (t : Tables) (p : Picker) : Tables :=
  { t with
    selection := p.selection
    boardSelection := p.boardSelection
    projectRecents := p.projectRecents
    boardRecents := p.boardRecents }

end HerdrBoard.Core.Tables

namespace HerdrBoard.Projects

namespace Picker

variable (p : Picker)

/-- The board a project remembers. -/
def remembered (projectId : Int) : Option Int :=
  (p.boardSelection.find? fun s => s.1 == projectId).map Prod.snd

def recentProjects : List Int := (p.projectRecents.insertionSort fun a b => a.2 ≤ b.2).map Prod.fst

def recentBoards (projectId : Int) : List Int :=
  ((p.boardRecents.filter fun r => r.1 == projectId).insertionSort fun a b => a.2.2 ≤ b.2.2).map
    fun r => r.2.1

def remember (projectId boardId : Int) : Picker :=
  { p with
    boardSelection :=
      if p.boardSelection.any fun s => s.1 == projectId then
        p.boardSelection.map fun s => if s.1 == projectId then (projectId, boardId) else s
      else p.boardSelection ++ [(projectId, boardId)] }

def forget (projectId : Int) : Picker :=
  { p with boardSelection := p.boardSelection.filter fun s => s.1 != projectId }

def touchProject (projectId : Int) : Picker :=
  { p with projectRecents := touchRecency p.recentProjects projectId }

def touchBoard (projectId boardId : Int) : Picker :=
  { p with
    boardRecents := p.boardRecents.filter (fun r => r.1 != projectId) ++
      (touchRecency (p.recentBoards projectId) boardId).map fun r => (projectId, r.1, r.2) }

/-- Select a project and one of its boards. -/
def choose (projectId boardId : Int) : Picker :=
  ((({ p with selection := some projectId }.remember projectId boardId).touchProject
    projectId).touchBoard projectId boardId)

/-- The ids a picker names are there, one row each. -/
structure Ok (t : Tables) : Prop where
  selected : p.selection.all t.hasProject
  one_board : (p.boardSelection.map Prod.fst).Nodup
  boards : ∀ s ∈ p.boardSelection, t.hasProject s.1 ∧ t.hasBoard s.2
  one_rank : (p.projectRecents.map Prod.fst).Nodup
  recents : ∀ r ∈ p.projectRecents, t.hasProject r.1
  one_board_rank : (p.boardRecents.map fun r => (r.1, r.2.1)).Nodup
  board_recents : ∀ r ∈ p.boardRecents, t.hasProject r.1 ∧ t.hasBoard r.2.1

end Picker

theorem picker_ok (db : Db) : db.picker.Ok db.toTables :=
  have hu := db.uniqueOk
  have hf := db.foreignKeysOk
  { selected := hf.2.2.2.2.2.2.1
    one_board := hu.2.2.2.2.1
    boards := hf.2.2.2.2.2.2.2.1
    one_rank := hu.2.2.2.2.2.1
    recents := hf.2.2.2.2.2.2.2.2.1
    one_board_rank := hu.2.2.2.2.2.2
    board_recents := hf.2.2.2.2.2.2.2.2.2 }

theorem violation_withPicker {db : Db} {p : Picker} (hp : p.Ok db.toTables) :
    (db.toTables.withPicker p).violation = none := by
  obtain ⟨hu₁, hu₂, hu₃, hu₄, -⟩ := db.uniqueOk
  obtain ⟨hf₁, hf₂, hf₃, hf₄, hf₅, hf₆, -⟩ := db.foreignKeysOk
  exact Tables.violation_eq_none.mpr ⟨db.checkOk,
    ⟨hu₁, hu₂, hu₃, hu₄, hp.one_board, hp.one_rank, hp.one_board_rank⟩,
    ⟨hf₁, hf₂, hf₃, hf₄, hf₅, hf₆, hp.selected, hp.boards, hp.recents, hp.board_recents⟩⟩

/-! ## Recency -/

/-- Distinct ids with ranks from 0, at most three. -/
structure Ranked (rows : List (Int × Int)) : Prop where
  distinct : (rows.map Prod.fst).Nodup
  ranks : rows.map Prod.snd = (List.range rows.length).map Int.ofNat
  atMost : rows.length ≤ 3

theorem fst_touchRecency (ids : List Int) (id : Int) :
    (touchRecency ids id).map Prod.fst = (id :: ids.filter (· != id)).take 3 := by
  simp only [touchRecency, List.map_map]
  exact (List.map_congr_left fun _ _ => rfl).trans (List.zipIdx_map_fst 0 _)

theorem ranked_touchRecency {ids : List Int} (hids : ids.Nodup) (id : Int) :
    Ranked (touchRecency ids id) where
  distinct := by
    rw [fst_touchRecency]
    refine List.Nodup.sublist (List.take_sublist _ _) (List.nodup_cons.mpr ⟨?_, hids.filter _⟩)
    simp
  ranks := by
    simp only [touchRecency, List.map_map, List.length_map, List.length_zipIdx]
    apply List.ext_getElem
    · simp
    · intro i h₁ h₂
      simp only [List.getElem_map, List.getElem_zipIdx, List.getElem_range, Function.comp,
        Nat.zero_add]
      rfl
  atMost := by
    simp only [touchRecency, List.length_map, List.length_zipIdx, List.length_take]
    omega

theorem first_touchRecency (ids : List Int) (id : Int) : (id, 0) ∈ touchRecency ids id := by
  simp [touchRecency]

theorem mem_touchRecency {ids : List Int} {id : Int} {r : Int × Int} (h : r ∈ touchRecency ids id) :
    r.1 = id ∨ r.1 ∈ ids := by
  have hmem : r.1 ∈ (touchRecency ids id).map Prod.fst := List.mem_map_of_mem h
  rw [fst_touchRecency] at hmem
  rcases List.mem_cons.mp (List.mem_of_mem_take hmem) with h | h
  · exact .inl h
  · exact .inr (List.mem_of_mem_filter h)

namespace Picker

variable {p : Picker} {t : Tables} {P b : Int}

theorem mem_recentProjects {id : Int} :
    id ∈ p.recentProjects ↔ ∃ r ∈ p.projectRecents, r.1 = id := by
  simp [recentProjects, List.mem_insertionSort]

theorem mem_recentBoards {id : Int} :
    id ∈ p.recentBoards P ↔ ∃ r ∈ p.boardRecents, r.1 = P ∧ r.2.1 = id := by
  simp [recentBoards, List.mem_insertionSort]

theorem Ok.recentProjects (h : p.Ok t) : p.recentProjects.Nodup :=
  ((List.perm_insertionSort _ _).map Prod.fst).nodup_iff.mpr h.one_rank

theorem Ok.recentBoards (h : p.Ok t) (P : Int) : (p.recentBoards P).Nodup := by
  refine ((List.perm_insertionSort _ _).map _).nodup_iff.mpr ?_
  have hpairs := (h.one_board_rank.sublist
    (List.Sublist.map _ (List.filter_sublist (p := fun r => r.1 == P))))
  rw [List.nodup_map_iff_inj_on (h.one_board_rank.of_map _ |>.filter _)] at hpairs ⊢
  intro r hr r' hr' heq
  have hr1 : r.1 = P := by simpa using (List.mem_filter.mp hr).2
  have hr1' : r'.1 = P := by simpa using (List.mem_filter.mp hr').2
  exact hpairs r hr r' hr' (Prod.ext (hr1.trans hr1'.symm) heq)

/-! ## What a project remembers -/

theorem remembered_of_mem (h : p.Ok t) {s : Int × Int} (hs : s ∈ p.boardSelection) :
    p.remembered s.1 = some s.2 := by
  have hfind : p.boardSelection.find? (fun r => r.1 == s.1) = some s := by
    obtain ⟨r, hr⟩ := Option.isSome_iff_exists.mp
      (List.find?_isSome.mpr ⟨s, hs, beq_self_eq_true s.1⟩ :
        (p.boardSelection.find? fun r => r.1 == s.1).isSome)
    have hkey : r.1 = s.1 := by simpa using List.find?_some hr
    rw [hr, List.inj_on_of_nodup_map h.one_board (List.mem_of_find?_eq_some hr) hs hkey]
  simp [remembered, hfind]

theorem mem_of_remembered (h : p.remembered P = some b) : (P, b) ∈ p.boardSelection := by
  obtain ⟨s, hs, rfl⟩ := Option.map_eq_some_iff.mp h
  have hkey : s.1 = P := by simpa using List.find?_some hs
  subst hkey
  exact List.mem_of_find?_eq_some hs

@[simp] theorem remembered_remember (P b Q : Int) :
    (p.remember P b).remembered Q = if Q = P then some b else p.remembered Q := by
  have hmap : ∀ rows : List (Int × Int),
      ((rows.map fun s => if s.1 == P then (P, b) else s).find? fun s => s.1 == Q) =
      (rows.find? fun s => s.1 == Q).map fun s => if s.1 == P then (P, b) else s := by
    intro rows
    rw [List.find?_map]
    congr 2
    funext s
    by_cases hs : s.1 = P <;> simp [Function.comp, hs]
  unfold remember remembered
  split
  next hany =>
    rw [hmap]
    split
    next hQ =>
      subst hQ
      obtain ⟨s, hs, hsP⟩ := List.any_eq_true.mp hany
      obtain ⟨r, hr⟩ := Option.isSome_iff_exists.mp
        (List.find?_isSome.mpr ⟨s, hs, hsP⟩ : (p.boardSelection.find? fun r => r.1 == Q).isSome)
      have hkey : r.1 = Q := by simpa using List.find?_some hr
      simp [hr, hkey]
    next hQ =>
      cases hr : p.boardSelection.find? fun r => r.1 == Q with
      | none => rfl
      | some r =>
          have hkey : r.1 = Q := by simpa using List.find?_some hr
          have hne : r.1 ≠ P := hkey ▸ hQ
          simp [hne]
  next hany =>
    rw [List.find?_append]
    split
    next hQ =>
      subst hQ
      have hnone : p.boardSelection.find? (fun r => r.1 == Q) = none := by
        rw [List.find?_eq_none]
        intro r hr hrQ
        exact hany (List.any_eq_true.mpr ⟨r, hr, hrQ⟩)
      simp [hnone]
    next hQ =>
      have hne : ¬P = Q := fun h => hQ h.symm
      simp [hne]

@[simp] theorem remembered_forget (P Q : Int) :
    (p.forget P).remembered Q = if Q = P then none else p.remembered Q := by
  unfold forget remembered
  rw [List.find?_filter]
  split
  next hQ =>
    subst hQ
    rw [List.find?_eq_none.mpr]
    · rfl
    · intro s _
      simp
  next hQ =>
    congr 2
    funext s
    by_cases hs : s.1 = Q <;> simp [hs, hQ]

@[simp] theorem remembered_touchProject (P Q : Int) :
    (p.touchProject P).remembered Q = p.remembered Q := rfl

@[simp] theorem remembered_touchBoard (P b Q : Int) :
    (p.touchBoard P b).remembered Q = p.remembered Q := rfl

@[simp] theorem remembered_choose (P b Q : Int) :
    (p.choose P b).remembered Q = if Q = P then some b else p.remembered Q := by
  simp only [choose, remembered_touchBoard, remembered_touchProject, remembered_remember]
  rfl

@[simp] theorem selection_choose (P b : Int) : (p.choose P b).selection = some P := rfl

theorem mem_remember {s : Int × Int} (hs : s ∈ (p.remember P b).boardSelection) :
    s = (P, b) ∨ (s.1 ≠ P ∧ s ∈ p.boardSelection) := by
  unfold remember at hs
  split at hs
  · obtain ⟨r, hr, rfl⟩ := List.mem_map.mp hs
    by_cases hrP : r.1 = P
    · simp [hrP]
    · simp [hrP, hr]
  next hany =>
    rcases List.mem_append.mp hs with hs | hs
    · refine .inr ⟨fun hsP => hany (List.any_eq_true.mpr ⟨s, hs, by simp [hsP]⟩), hs⟩
    · exact .inl (by simpa using hs)

/-! ## Writing a picker keeps it well formed -/

theorem Ok.select (h : p.Ok t) (hP : t.hasProject P) : Ok { p with selection := some P } t :=
  { h with selected := by simpa using hP }

theorem Ok.deselect (h : p.Ok t) : Ok { p with selection := none } t := { h with selected := rfl }

theorem Ok.remember (h : p.Ok t) (hP : t.hasProject P) (hb : t.hasBoard b) :
    (p.remember P b).Ok t :=
  { h with
    one_board := by
      unfold Picker.remember
      split
      · have hkeys : (p.boardSelection.map fun s => if s.1 == P then (P, b) else s).map Prod.fst =
            p.boardSelection.map Prod.fst := by
          rw [List.map_map]
          refine List.map_congr_left fun s _ => ?_
          by_cases hs : s.1 = P <;> simp [hs]
        simpa only [hkeys] using h.one_board
      next hany =>
        simp only [List.map_append, List.map_cons, List.map_nil]
        refine List.nodup_append'.mpr ⟨h.one_board, List.nodup_singleton _, ?_⟩
        intro k hk hkP
        obtain ⟨s, hs, rfl⟩ := List.mem_map.mp hk
        exact hany (List.any_eq_true.mpr ⟨s, hs, by simpa using hkP⟩)
    boards := fun s hs => by
      rcases mem_remember hs with rfl | ⟨-, hs⟩
      · exact ⟨hP, hb⟩
      · exact h.boards s hs }

theorem Ok.forget (h : p.Ok t) (P : Int) : (p.forget P).Ok t :=
  { h with
    one_board := h.one_board.sublist (List.filter_sublist.map _)
    boards := fun s hs => h.boards s (List.mem_of_mem_filter hs) }

theorem Ok.touchProject (h : p.Ok t) (hP : t.hasProject P) : (p.touchProject P).Ok t :=
  { h with
    one_rank := (ranked_touchRecency h.recentProjects P).distinct
    recents := fun r hr => by
      rcases mem_touchRecency hr with hrP | hr
      · exact hrP ▸ hP
      · obtain ⟨r', hr', heq⟩ := mem_recentProjects.mp hr
        exact heq ▸ h.recents r' hr' }

theorem mem_touchBoard {r : Int × Int × Int} (hr : r ∈ (p.touchBoard P b).boardRecents) :
    (r.1 ≠ P ∧ r ∈ p.boardRecents) ∨ (r.1 = P ∧ r.2 ∈ touchRecency (p.recentBoards P) b) := by
  rcases List.mem_append.mp hr with hr | hr
  · obtain ⟨hmem, hne⟩ := List.mem_filter.mp hr
    exact .inl ⟨by simpa using hne, hmem⟩
  · obtain ⟨q, hq, rfl⟩ := List.mem_map.mp hr
    exact .inr ⟨rfl, hq⟩

theorem Ok.touchBoard (h : p.Ok t) (hP : t.hasProject P) (hb : t.hasBoard b) :
    (p.touchBoard P b).Ok t :=
  { h with
    one_board_rank := by
      simp only [Picker.touchBoard, List.map_append, List.map_map]
      refine List.nodup_append'.mpr ⟨h.one_board_rank.sublist (List.filter_sublist.map _), ?_, ?_⟩
      · have hfst := (ranked_touchRecency (h.recentBoards P) b).distinct
        rw [show ((fun r : Int × Int × Int => (r.1, r.2.1)) ∘ fun r : Int × Int => (P, r.1, r.2)) =
          (fun k => (P, k)) ∘ Prod.fst from rfl, ← List.map_map]
        exact hfst.map fun _ _ heq => (Prod.mk.inj heq).2
      · intro k hk hkP
        obtain ⟨r, hr, rfl⟩ := List.mem_map.mp hk
        obtain ⟨q, -, heq⟩ := List.mem_map.mp hkP
        have hne := (List.mem_filter.mp hr).2
        simp only [Function.comp, Prod.mk.injEq] at heq
        simp [heq.1] at hne
    board_recents := fun r hr => by
      rcases mem_touchBoard hr with ⟨-, hr⟩ | ⟨hrP, hr⟩
      · exact h.board_recents r hr
      · rcases mem_touchRecency hr with hrb | hr
        · exact ⟨hrP ▸ hP, hrb ▸ hb⟩
        · obtain ⟨r', hr', -, heq⟩ := mem_recentBoards.mp hr
          exact ⟨hrP ▸ hP, heq ▸ (h.board_recents r' hr').2⟩ }

end Picker

end HerdrBoard.Projects
