import HerdrBoard.Projects.Requests
import Mathlib.Data.String.Basic

/-!
# Boards by name

Names are kept apart up to ASCII case, and looked up by the lower case of all of Unicode.
-/

open Lib HerdrBoard.Core
open HerdrBoard.Core.Tables (noCase)

namespace HerdrBoard.Projects

variable {conn : Conn} {db db' : Db} {b b' : Board} {r s t : String}

/-- The lower case of a text does not depend on the case of its ASCII letters. -/
def FoldsAscii (conn : Conn) : Prop :=
  ∀ s, conn.toLowercase (String.ofList (noCase s)) = conn.toLowercase s

theorem FoldsAscii.congr (hfold : FoldsAscii conn) (h : noCase s = noCase t) :
    conn.toLowercase s = conn.toLowercase t := by
  rw [← hfold s, ← hfold t, h]

/-! ## References -/

theorem noCase_noCase (s : String) : noCase (String.ofList (noCase s)) = noCase s := by
  simp [noCase, toLower_toLower]

/-- A letter is not part of a number, in neither case. -/
theorem toLower_cases (c : Char) : c.toLower = c ∨ (c.isDigit = false ∧ c ≠ '-' ∧ c ≠ '+' ∧
    c.toLower.isDigit = false ∧ c.toLower ≠ '-' ∧ c.toLower ≠ '+') :=
  toLower_induction (p := fun c => c.toLower = c ∨ (c.isDigit = false ∧ c ≠ '-' ∧ c ≠ '+' ∧
    c.toLower.isDigit = false ∧ c.toLower ≠ '-' ∧ c.toLower ≠ '+')) (by decide +kernel)
      (fun _ => .inl) c

theorem digitsValue_toLower (l : List Char) : digitsValue (l.map Char.toLower) = digitsValue l := by
  by_cases hall : l.all Char.isDigit = true
  · have hsame : l.map Char.toLower = l := by
      refine (List.map_congr_left fun c hc => ?_).trans (List.map_id l)
      rcases toLower_cases c with hsame | ⟨hdigit, -⟩
      · exact hsame
      · rw [List.all_eq_true.mp hall c hc] at hdigit
        cases hdigit
    rw [hsame]
  · have hlower : (l.map Char.toLower).all Char.isDigit = false := by
      obtain ⟨c, hc, hnot⟩ := List.all_eq_false.mp (Bool.eq_false_iff.mpr hall)
      refine List.all_eq_false.mpr ⟨c.toLower, List.mem_map_of_mem hc, ?_⟩
      rcases toLower_cases c with hsame | ⟨-, -, -, hdigit, -⟩
      · rwa [hsame]
      · simp [hdigit]
    rw [digitsValue, digitsValue, hlower, Bool.eq_false_iff.mpr hall]
    simp

theorem parseI64_toLower (l : List Char) : parseI64 (l.map Char.toLower) = parseI64 l := by
  cases l with
  | nil => rfl
  | cons c l =>
      rcases toLower_cases c with hsame | ⟨-, hminus, hplus, -, hminus', hplus'⟩
      · rw [List.map_cons, hsame]
        by_cases hminus : c = '-'
        · subst hminus
          simp [parseI64, digitsValue_toLower]
        · by_cases hplus : c = '+'
          · subst hplus
            simp [parseI64, digitsValue_toLower]
          · have hdigits := digitsValue_toLower (c :: l)
            rw [List.map_cons, hsame] at hdigits
            simp [parseI64, hminus, hplus, hdigits]
      · have hdigits := digitsValue_toLower (c :: l)
        rw [List.map_cons] at hdigits
        simp [parseI64, hminus, hplus, hminus', hplus', hdigits]

/-- Whether a number can be read from a text does not depend on the case of its letters. -/
theorem parseI64_congr (h : noCase s = noCase t) : parseI64 s.toList = parseI64 t.toList := by
  rw [← parseI64_toLower s.toList, ← parseI64_toLower t.toList]
  exact congrArg parseI64 h

/-- The board of a name in a project. -/
theorem board_unique (hb : b ∈ db.boards) (hb' : b' ∈ db.boards)
    (hproject : b.projectId = b'.projectId) (hname : noCase b.name = noCase b'.name) : b = b' := by
  by_contra hne
  have hsymm : Std.Symm fun a b : Board =>
      ¬(a.projectId = b.projectId ∧ noCase a.name = noCase b.name) :=
    ⟨fun _ _ h h' => h ⟨h'.1.symm, h'.2.symm⟩⟩
  exact db.uniqueOk.2.1.forall hb hb' hne ⟨hproject, hname⟩

theorem resolveBoard_named {projectId : Int} (hnumber : parseI64 r.toList = none) :
    resolveBoard conn projectId r db = .ok b db' ↔
      (b ∈ db.boards ∧ b.projectId = projectId ∧ noCase b.name = (conn.toLowercase r).toList) ∧
      db' = db := by
  simp only [resolveBoard, hnumber, get_bind_run, okOr_ok]
  constructor
  · rintro ⟨hfound, rfl⟩
    have hmatch := List.find?_some hfound
    simp only [Bool.and_eq_true, beq_iff_eq] at hmatch
    exact ⟨⟨List.mem_of_find?_eq_some hfound, hmatch⟩, rfl⟩
  · rintro ⟨⟨hb, hproject, hname⟩, rfl⟩
    refine ⟨?_, rfl⟩
    cases hfound : db'.boards.rows.find? fun b =>
        b.projectId == projectId && noCase b.name == (conn.toLowercase r).toList with
    | none =>
        have hnone := List.find?_eq_none.mp hfound b hb
        simp [hproject, hname] at hnone
    | some b' =>
        have hmatch := List.find?_some hfound
        simp only [Bool.and_eq_true, beq_iff_eq] at hmatch
        exact congrArg some (board_unique (List.mem_of_find?_eq_some hfound) hb
          (hmatch.1.trans hproject.symm) (hmatch.2.trans hname.symm))

theorem resolveBoard_of_find {id projectId : Int} (hnumber : parseI64 r.toList = none)
    (hfind : db.boards.find? id = some b)
    (hproject : b.projectId = projectId) (hname : noCase b.name = (conn.toLowercase r).toList) :
    resolveBoard conn projectId r db = .ok b db :=
  (resolveBoard_named hnumber).mpr ⟨⟨Table.mem_of_find? hfind, hproject, hname⟩, rfl⟩

/-- A reference, a number or a name, never leads to a board of another project. -/
theorem resolveBoard_project {projectId : Int} (h : resolveBoard conn projectId r db = .ok b db') :
    b.projectId = projectId := by
  have hnamed {db : Db} {e : Error}
      (h : okOr (db.boards.rows.find? fun b => b.projectId == projectId &&
      noCase b.name == (conn.toLowercase r).toList) e db = .ok b db') :
      b.projectId = projectId := by
    have hmatch := List.find?_some (okOr_ok.mp h).1
    simp only [Bool.and_eq_true, beq_iff_eq] at hmatch
    exact hmatch.1
  cases hnumber : parseI64 r.toList with
  | none => exact ((resolveBoard_named hnumber).mp h).1.2.1
  | some id =>
      simp only [resolveBoard, hnumber, get_bind_run] at h
      obtain ⟨board, _, hboard, h⟩ := bind_ok.mp h
      obtain rfl := (readOnly_getBoard id).ok hboard
      rcases ite_ok.mp h with ⟨hproject, hpure⟩ | ⟨-, hrest⟩
      · obtain ⟨rfl, -⟩ := pure_ok.mp hpure
        exact hproject
      · exact hnamed hrest

/-- A board answers to the variants of its name just when the lower case of the name changes its
ASCII letters only. -/
theorem board_answers_to_name_iff (conn : Conn) (hfold : FoldsAscii conn) (db : Db) (b : Board)
    (hb : b ∈ db.boards) (hname : parseI64 b.name.toList = none) :
    ((∀ r, noCase r = noCase b.name → resolveBoard conn b.projectId r db = .ok b db) ∧
      ∀ r b' db', resolveBoard conn b.projectId r db = .ok b' db' → b'.projectId = b.projectId) ↔
    conn.toLowercase b.name = String.ofList (noCase b.name) := by
  constructor
  · rintro ⟨hanswers, -⟩
    obtain ⟨⟨-, -, hlower⟩, -⟩ := (resolveBoard_named hname).mp (hanswers b.name rfl)
    rw [hlower, String.ofList_toList]
  · intro hlower
    refine ⟨fun r hr => ?_, fun r b' db' h => resolveBoard_project h⟩
    refine (resolveBoard_named (by rw [parseI64_congr hr, hname])).mpr ⟨⟨hb, rfl, ?_⟩, rfl⟩
    rw [hfold.congr hr, hlower, String.toList_ofList]

/-- The lower case of texts with no other capital letters than those of ASCII. -/
def asciiConn : Conn where
  now := "2026-01-01 00:00:00"
  toLowercase s := String.ofList (noCase s)

theorem foldsAscii_asciiConn :
    FoldsAscii asciiConn := fun s => congrArg String.ofList (noCase_noCase s)

theorem board_answers_to_name_iff_main :
    resolveBoard asciiConn 1 "MAIN" Db.fresh = .ok ⟨1, 1, "main", none⟩ Db.fresh :=
  ((board_answers_to_name_iff asciiConn foldsAscii_asciiConn Db.fresh ⟨1, 1, "main", none⟩
    (Table.mem_of_find? (show Db.fresh.boards.find? 1 = some ⟨1, 1, "main", none⟩ by decide))
    (by decide)).mpr rfl).1 "MAIN" (by decide)

/-- The lower case of texts with no other capital letters than those of ASCII and `Ü`. -/
def umlautConn : Conn where
  now := "2026-01-01 00:00:00"
  toLowercase s := String.ofList ((noCase s).map fun c => if c = 'Ü' then 'ü' else c)

theorem toLowercase_umlautConn (s : String) :
    (umlautConn.toLowercase s).toList = (noCase s).map fun c => if c = 'Ü' then 'ü' else c :=
  String.toList_ofList

/-- Two boards of one project whose names differ in the case of `Ü`. -/
def twoOverviews : Db :=
  finalState ((do
    let _ ← createBoard 1 "Übersicht"
    let _ ← createBoard 1 "übersicht"
    pure () : StoreM Unit) Db.fresh)

/-- The first of the two boards does not answer to its name; the second does. -/
theorem other_board_answers :
    FoldsAscii umlautConn ∧ twoOverviews.board? 2 = some ⟨2, 1, "Übersicht", none⟩ ∧
    parseI64 "Übersicht".toList = none ∧
    resolveBoard umlautConn 1 "Übersicht" twoOverviews = .ok ⟨3, 1, "übersicht", none⟩
      twoOverviews := by
  have hsecond : twoOverviews.boards.find? 3 = some ⟨3, 1, "übersicht", none⟩ := by decide +kernel
  have hlower : noCase "übersicht" = (noCase "Übersicht").map fun c =>
      if c = 'Ü' then 'ü' else c := by decide +kernel
  have hnumber : parseI64 "Übersicht".toList = none := by decide +kernel
  refine ⟨fun s => ?_, by decide +kernel, hnumber, ?_⟩
  · simp only [umlautConn, noCase_noCase]
  · exact resolveBoard_of_find hnumber hsecond rfl (hlower.trans (toLowercase_umlautConn _).symm)

end HerdrBoard.Projects
