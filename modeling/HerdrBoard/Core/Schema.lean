import HerdrBoard.Core.Model
import Mathlib.Data.List.Pairwise

/-!
# The database schema

The tables, the CHECK, UNIQUE and FOREIGN KEY constraints of `schema.sql`, and `Db`: tables that
meet them. Primary keys need no constraint of their own, since a `Table` cannot hold two rows
with one key. -/

namespace HerdrBoard.Core

open Lib

structure Tables where
  projects : Table Project
  boards : Table Board
  columns : Table Column
  cards : Table Card
  comments : Table Comment
  commentHistory : Table CommentHistory
  runs : Table Run
  /-- The project of the singleton row of `selection`. -/
  selection : Option Int
  /-- `(project_id, board_id)` -/
  boardSelection : List (Int × Int)
  /-- `(project_id, rank)` -/
  projectRecents : List (Int × Int)
  /-- `(project_id, board_id, rank)` -/
  boardRecents : List (Int × Int × Int)
  deriving DecidableEq

namespace Tables

variable (t : Tables)

/-- `COLLATE NOCASE`: equal up to ASCII letter case. -/
def noCase (s : String) : List Char := s.toList.map Char.toLower

/-! ## Constraints -/

/-- The CHECK on `cards`: a reason is present exactly while awaiting. -/
def CheckOk : Prop := ∀ c ∈ t.cards.rows, c.status = .awaiting ↔ c.awaitingReason.isSome

def UniqueOk : Prop :=
  (t.projects.rows.Pairwise fun a b => a.scopePath = none ∨ a.scopePath ≠ b.scopePath) ∧
  (t.boards.rows.Pairwise fun a b => ¬(a.projectId = b.projectId ∧ noCase a.name = noCase b.name)) ∧
  (t.columns.rows.Pairwise fun a b => ¬(a.boardId = b.boardId ∧ a.name = b.name)) ∧
  -- idx_runs_one_open_per_card
  (t.runs.rows.Pairwise fun a b => ¬(a.cardId = b.cardId ∧ a.isOpen ∧ b.isOpen)) ∧
  (t.boardSelection.map Prod.fst).Nodup ∧
  (t.projectRecents.map Prod.fst).Nodup ∧
  (t.boardRecents.map fun r => (r.1, r.2.1)).Nodup

def hasProject (id : Int) : Bool := (t.projects.find? id).isSome
def hasBoard (id : Int) : Bool := (t.boards.find? id).isSome
def hasColumn (id : Int) : Bool := (t.columns.find? id).isSome
def hasCard (id : Int) : Bool := (t.cards.find? id).isSome
def hasComment (id : Int) : Bool := (t.comments.find? id).isSome

def ForeignKeysOk : Prop :=
  (∀ b ∈ t.boards.rows, t.hasProject b.projectId) ∧
  (∀ c ∈ t.columns.rows, t.hasBoard c.boardId ∧
    c.onSuccessColumnId.all t.hasColumn ∧ c.onFailColumnId.all t.hasColumn) ∧
  (∀ c ∈ t.cards.rows, t.hasBoard c.boardId ∧ t.hasColumn c.columnId) ∧
  (∀ m ∈ t.comments.rows, t.hasCard m.cardId) ∧
  (∀ h ∈ t.commentHistory.rows, t.hasComment h.commentId ∧ t.hasCard h.cardId) ∧
  (∀ r ∈ t.runs.rows, t.hasCard r.cardId ∧ t.hasColumn r.columnId) ∧
  t.selection.all t.hasProject ∧
  (∀ s ∈ t.boardSelection, t.hasProject s.1 ∧ t.hasBoard s.2) ∧
  (∀ r ∈ t.projectRecents, t.hasProject r.1) ∧
  (∀ r ∈ t.boardRecents, t.hasProject r.1 ∧ t.hasBoard r.2.1)

instance : Decidable t.CheckOk := inferInstanceAs (Decidable (∀ c ∈ t.cards.rows, _))
instance : Decidable t.UniqueOk := inferInstanceAs (Decidable (_ ∧ _))
instance : Decidable t.ForeignKeysOk := inferInstanceAs (Decidable (_ ∧ _))

/-- The first constraint the tables break, in the order SQLite reports them. -/
def violation : Option ConstraintViolation :=
  if ¬t.CheckOk then some .check
  else if ¬t.UniqueOk then some .unique
  else if ¬t.ForeignKeysOk then some .foreignKey
  else none

variable {t}

theorem violation_eq_none : t.violation = none ↔ t.CheckOk ∧ t.UniqueOk ∧ t.ForeignKeysOk := by
  unfold violation
  split
  · simp_all
  · split
    · simp_all
    · split <;> simp_all

end Tables

/-- A database: tables that meet every constraint. -/
structure Db extends Tables where
  sound : toTables.violation = none

namespace Db

@[ext] theorem ext_tables {a b : Db} (h : a.toTables = b.toTables) : a = b := by
  cases a
  cases b
  cases h
  rfl

instance : DecidableEq Db := fun _ _ => decidable_of_iff _ ⟨ext_tables, congrArg toTables⟩

variable (db : Db)

theorem checkOk : db.CheckOk := (Tables.violation_eq_none.mp db.sound).1

theorem uniqueOk : db.UniqueOk := (Tables.violation_eq_none.mp db.sound).2.1

theorem foreignKeysOk : db.ForeignKeysOk := (Tables.violation_eq_none.mp db.sound).2.2

variable {db}

theorem awaiting_iff {c : Card} (hc : c ∈ db.cards) :
    c.status = .awaiting ↔ c.awaitingReason.isSome :=
  db.checkOk c hc

/-- A card has at most one open run. -/
theorem open_run_unique {r s : Run} (hr : r ∈ db.runs) (hs : s ∈ db.runs)
    (hcard : r.cardId = s.cardId) (hro : r.isOpen = true) (hso : s.isOpen = true) : r = s := by
  by_contra hne
  have hsymm : Std.Symm fun a b : Run => ¬(a.cardId = b.cardId ∧ a.isOpen ∧ b.isOpen) :=
    ⟨fun _ _ h h' => h ⟨h'.1.symm, h'.2.2, h'.2.1⟩⟩
  exact db.uniqueOk.2.2.2.1.forall hr hs hne ⟨hcard, hro, hso⟩

theorem column_board {l : Column} (hl : l ∈ db.columns) : ∃ b ∈ db.boards, b.id = l.boardId := by
  have h := (db.foreignKeysOk.2.1 l hl).1
  exact Table.mem_keys.mp (Table.find?_isSome_iff.mp h)

theorem card_column {c : Card} (hc : c ∈ db.cards) : ∃ l ∈ db.columns, l.id = c.columnId := by
  have h := (db.foreignKeysOk.2.2.1 c hc).2
  exact Table.mem_keys.mp (Table.find?_isSome_iff.mp h)

theorem run_card {r : Run} (hr : r ∈ db.runs) : ∃ c ∈ db.cards, c.id = r.cardId := by
  have h := (db.foreignKeysOk.2.2.2.2.2.1 r hr).1
  exact Table.mem_keys.mp (Table.find?_isSome_iff.mp h)

theorem run_column {r : Run} (hr : r ∈ db.runs) : ∃ l ∈ db.columns, l.id = r.columnId := by
  have h := (db.foreignKeysOk.2.2.2.2.2.1 r hr).2
  exact Table.mem_keys.mp (Table.find?_isSome_iff.mp h)

/-! ## A fresh database -/

/-- The Global project with its board and the seed column. -/
def freshTables : Tables where
  projects := Table.empty.insert fun id => { id, scopePath := none, archivedAt := none }
  boards := Table.empty.insert fun id => { id, projectId := 1, name := "main", archivedAt := none }
  columns := Table.empty.insert fun id =>
    { id, boardId := 1, name := "Todo", position := 0, systemPrompt := none, trigger := .manual,
      onSuccessColumnId := none, onFailColumnId := none, freshSession :=
    false, harnessOverride := none,
      modelOverride := none, effortOverride := none, permissionOverride :=
    none, timeoutMinutes := none }
  cards := Table.empty
  comments := Table.empty
  commentHistory := Table.empty
  runs := Table.empty
  selection := none
  boardSelection := []
  projectRecents := []
  boardRecents := []

def fresh : Db := ⟨freshTables, by decide⟩

end Db

end HerdrBoard.Core
