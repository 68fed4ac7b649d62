import HerdrBoard.Core.Schema
import HerdrBoard.Lib.Outcome

/-!
# Statements

A store computation reads and writes a `Db`. A statement that would break a constraint is refused;
every other statement commits exactly the tables it computes. -/

namespace HerdrBoard.Core

open Lib

/-- Statement boundaries at which a test hook may inject a fault. -/
inductive LifecycleFaultPoint where
  | enqueueAfterRunInsert
  | promoteAfterRunUpdate
  | finalizeAfterRunUpdate
  | captureAfterRunUpdate
  deriving DecidableEq, Repr

/-- What a unit of work takes from outside the tables: `datetime('now')`, the fault hook, and
Unicode lowercasing. -/
structure Conn where
  now : String
  toLowercase : String → String := String.toLower
  lifecycleFaultHook : Option (LifecycleFaultPoint → Except Error Unit) := none

abbrev StoreM := EStateM Error Db

/-- Run one statement. -/
def exec (f : Tables → Tables) : StoreM Unit := fun db =>
  match h : (f db.toTables).violation with
  | none => .ok () ⟨f db.toTables, h⟩
  | some v => .error (.sqlite v) db

@[simp] theorem exec_ok {f : Tables → Tables} {db db' : Db} {u : Unit} :
    exec f db = .ok u db' ↔ db'.toTables = f db.toTables := by
  unfold exec
  split
  next h =>
    constructor
    · intro hok
      cases hok
      rfl
    · intro heq
      congr 1
      exact Db.ext_tables heq.symm
  next v h =>
    constructor
    · intro hok
      cases hok
    · intro heq
      rw [← heq, db'.sound] at h
      cases h

theorem exec_atomic (f : Tables → Tables) : Atomic (exec f) := by
  intro db e db' h
  unfold exec at h
  split at h <;> cases h
  rfl

/-- A statement that breaks no constraint succeeds. -/
theorem exec_total {f : Tables → Tables} {db : Db} (h : (f db.toTables).violation = none) :
    exec f db = .ok () ⟨f db.toTables, h⟩ := exec_ok.mpr rfl

def lifecycleFault (conn : Conn) (point : LifecycleFaultPoint) : StoreM Unit :=
  match conn.lifecycleFaultHook with
  | some hook => fromExcept (hook point)
  | none => pure ()

theorem lifecycleFault_ok {conn : Conn} {point : LifecycleFaultPoint} {db db' : Db} {u : Unit}
    (h : lifecycleFault conn point db = .ok u db') : db' = db := by
  obtain ⟨now, lower, hook⟩ := conn
  cases hook with
  | some hook => exact (fromExcept_ok.mp h).2.symm
  | none => exact (pure_ok.mp h).2.symm

/-! ## Row statements -/

def insertColumn (row : Int → Column)
    (hkey : ∀ k, Keyed.key (row k) = k := by intro k; exact Eq.trans rfl rfl) : StoreM Int := do
  let db ← get
  exec fun t => { t with columns := t.columns.insert row hkey }
  pure db.columns.nextKey

def updateColumns (p : Column → Bool) (f : Column → Column)
    (hkey : ∀ r, Keyed.key (f r) = Keyed.key r := by intro r; exact Eq.trans rfl rfl) :
    StoreM Unit :=
  exec fun t => { t with columns := t.columns.update p f hkey }

def insertCard (row : Int → Card)
    (hkey : ∀ k, Keyed.key (row k) = k := by intro k; exact Eq.trans rfl rfl) : StoreM Int := do
  let db ← get
  exec fun t => { t with cards := t.cards.insert row hkey }
  pure db.cards.nextKey

/-- `UPDATE cards`, with the number of rows it matched. -/
def updateCards (p : Card → Bool) (f : Card → Card)
    (hkey : ∀ r, Keyed.key (f r) = Keyed.key r := by intro r; exact Eq.trans rfl rfl) :
    StoreM Nat := do
  let db ← get
  exec fun t => { t with cards := t.cards.update p f hkey }
  pure (db.cards.select p).length

def insertRun (row : Int → Run)
    (hkey : ∀ k, Keyed.key (row k) = k := by intro k; exact Eq.trans rfl rfl) : StoreM Int := do
  let db ← get
  exec fun t => { t with runs := t.runs.insert row hkey }
  pure db.runs.nextKey

def updateRuns (p : Run → Bool) (f : Run → Run)
    (hkey : ∀ r, Keyed.key (f r) = Keyed.key r := by intro r; exact Eq.trans rfl rfl) :
    StoreM Unit :=
  exec fun t => { t with runs := t.runs.update p f hkey }

/-- `INSERT INTO comments`, which fires `comments_audit_insert`. -/
def insertComment (conn : Conn) (cardId : Int) (author body : String) : StoreM Int := do
  let db ← get
  let id := db.comments.nextKey
  exec fun t =>
    { t with
      comments := t.comments.insert fun id =>
        { id, cardId, author, body, createdAt := conn.now, deletedAt := none }
      commentHistory := t.commentHistory.insert fun h =>
        { id := h, commentId := id, cardId, author, body,
          createdAt := conn.now, deletedAt := none } }
  pure id

/-- `DELETE FROM cards`, which cascades to the card's comments, their history and the
card's runs. -/
def deleteCardRow (id : Int) : StoreM Unit :=
  exec fun t =>
    { t with
      cards := t.cards.delete fun c => c.id == id
      comments := t.comments.delete fun m => m.cardId == id
      commentHistory := t.commentHistory.delete fun h =>
        h.cardId == id || (t.comments.select fun m => m.cardId == id).any fun m =>
          m.id == h.commentId
      runs := t.runs.delete fun r => r.cardId == id }

/-- `DELETE FROM columns`, which clears the transitions into the column. -/
def deleteColumnRow (id : Int) : StoreM Unit :=
  exec fun t =>
    { t with
      columns := (t.columns.delete fun c => c.id == id).update (fun _ => true) fun c =>
        { c with
          onSuccessColumnId := c.onSuccessColumnId.filter (· != id)
          onFailColumnId := c.onFailColumnId.filter (· != id) } }

/-- `UPDATE cards SET position=i WHERE id=cid` for each key of the list, from `n` on. -/
def setCardPositionsFrom (n : Nat) : List Int → StoreM Unit
  | [] => pure ()
  | cid :: ids => do
      exec fun t =>
        { t with cards := t.cards.update (fun c =>
          Keyed.key c == cid) (Placed.setPosition n) (Placed.key_setPosition _) }
      setCardPositionsFrom (n + 1) ids

def setCardPositions (ids : List Int) : StoreM Unit := setCardPositionsFrom 0 ids

/-- `UPDATE columns SET position=i WHERE id=cid` for each key of the list, from `n` on. -/
def setColumnPositionsFrom (n : Nat) : List Int → StoreM Unit
  | [] => pure ()
  | cid :: ids => do
      exec fun t =>
        { t with
          columns := t.columns.update (fun c => Keyed.key c == cid) (Placed.setPosition n)
            (Placed.key_setPosition _) }
      setColumnPositionsFrom (n + 1) ids

def setColumnPositions (ids : List Int) : StoreM Unit := setColumnPositionsFrom 0 ids

/-! ## What row statements commit -/

@[simp] theorem insertColumn_ok {row : Int → Column} {hkey} {db db' : Db} {id : Int} :
    insertColumn row hkey db = .ok id db' ↔
      db'.toTables = { db.toTables with columns := db.columns.insert row hkey } ∧
      id = db.columns.nextKey := by
  simp only [insertColumn, bind_ok, get_ok, exec_ok, pure_ok]
  constructor
  · rintro ⟨_, _, ⟨rfl, rfl⟩, _, _, h, rfl, rfl⟩
    exact ⟨h, rfl⟩
  · rintro ⟨h, rfl⟩
    exact ⟨_, _, ⟨rfl, rfl⟩, (), _, h, rfl, rfl⟩

@[simp] theorem updateColumns_ok {p : Column → Bool} {f : Column → Column} {hkey}
    {db db' : Db} {u : Unit} : updateColumns p f hkey db = .ok u db' ↔
      db'.toTables = { db.toTables with columns := db.columns.update p f hkey } := exec_ok

@[simp] theorem insertCard_ok {row : Int → Card} {hkey} {db db' : Db} {id : Int} :
    insertCard row hkey db = .ok id db' ↔
      db'.toTables = { db.toTables with cards := db.cards.insert row hkey } ∧
      id = db.cards.nextKey := by
  simp only [insertCard, bind_ok, get_ok, exec_ok, pure_ok]
  constructor
  · rintro ⟨_, _, ⟨rfl, rfl⟩, _, _, h, rfl, rfl⟩
    exact ⟨h, rfl⟩
  · rintro ⟨h, rfl⟩
    exact ⟨_, _, ⟨rfl, rfl⟩, (), _, h, rfl, rfl⟩

@[simp] theorem updateCards_ok {p : Card → Bool} {f : Card → Card} {hkey} {db db' : Db} {n : Nat} :
    updateCards p f hkey db = .ok n db' ↔
      db'.toTables = { db.toTables with cards := db.cards.update p f hkey } ∧
        n = (db.cards.select p).length := by
  simp only [updateCards, bind_ok, get_ok, exec_ok, pure_ok]
  constructor
  · rintro ⟨_, _, ⟨rfl, rfl⟩, _, _, h, rfl, rfl⟩
    exact ⟨h, rfl⟩
  · rintro ⟨h, rfl⟩
    exact ⟨_, _, ⟨rfl, rfl⟩, (), _, h, rfl, rfl⟩

@[simp] theorem insertRun_ok {row : Int → Run} {hkey} {db db' : Db} {id : Int} :
    insertRun row hkey db = .ok id db' ↔
      db'.toTables = { db.toTables with runs := db.runs.insert row hkey } ∧
      id = db.runs.nextKey := by
  simp only [insertRun, bind_ok, get_ok, exec_ok, pure_ok]
  constructor
  · rintro ⟨_, _, ⟨rfl, rfl⟩, _, _, h, rfl, rfl⟩
    exact ⟨h, rfl⟩
  · rintro ⟨h, rfl⟩
    exact ⟨_, _, ⟨rfl, rfl⟩, (), _, h, rfl, rfl⟩

@[simp] theorem updateRuns_ok {p : Run → Bool} {f : Run → Run} {hkey} {db db' : Db} {u : Unit} :
    updateRuns p f hkey db = .ok u db' ↔
      db'.toTables = { db.toTables with runs := db.runs.update p f hkey } := exec_ok

/-! ## Statements that break no constraint -/

namespace Tables

variable {t : Tables}

theorem violation_congr {t' : Tables} (hc : t'.CheckOk ↔ t.CheckOk) (hu : t'.UniqueOk ↔ t.UniqueOk)
    (hf : t'.ForeignKeysOk ↔ t.ForeignKeysOk) : t'.violation = t.violation := by
  simp only [violation, hc, hu, hf]

theorem checkOk_updateCards {p : Card → Bool} {f : Card → Card} {hkey} :
    CheckOk { t with cards := t.cards.update p f hkey } ↔
      ∀ c ∈ t.cards, ((if p c then f c else c).status = .awaiting ↔
        (if p c then f c else c).awaitingReason.isSome) := by
  simp [CheckOk, Table.update, Table.mem_def]

theorem foreignKeysOk_updateCards {p : Card → Bool} {f : Card → Card} {hkey}
    (hboard : ∀ c, (f c).boardId = c.boardId) (hcolumn : ∀ c, (f c).columnId = c.columnId) :
    ForeignKeysOk { t with cards := t.cards.update p f hkey } ↔ t.ForeignKeysOk := by
  have hcard : hasCard { t with cards := t.cards.update p f hkey } = t.hasCard := by
    funext id
    simp [hasCard, Table.find?_update]
  have hif : ∀ c, (if p c then f c else c).boardId = c.boardId ∧
      (if p c then f c else c).columnId = c.columnId := by
    intro c
    split
    · exact ⟨hboard c, hcolumn c⟩
    · exact ⟨rfl, rfl⟩
  simp only [ForeignKeysOk, hcard]
  simp only [Table.update, List.forall_mem_map, (hif _).1, (hif _).2]
  rfl

/-- Positions are under no constraint. -/
theorem violation_setPosition_cards {p : Card → Bool} {i : Int} :
    violation { t with cards := t.cards.update p (Placed.setPosition i) (Placed.key_setPosition _)
      } = t.violation := by
  refine violation_congr ?_ Iff.rfl (foreignKeysOk_updateCards (fun _ => rfl) fun _ => rfl)
  rw [checkOk_updateCards]
  refine forall₂_congr fun c _ => ?_
  split <;> rfl

theorem violation_setPosition_columns {p : Column → Bool} {i : Int} :
    violation
        { t with columns := t.columns.update p (Placed.setPosition i) (Placed.key_setPosition _) } =
      t.violation := by
  have hcolumn : hasColumn
      { t with columns := t.columns.update p (Placed.setPosition i) (Placed.key_setPosition _) } =
      t.hasColumn := by
    funext id
    simp [hasColumn, Table.find?_update]
  have hrows : ∀ c : Column, (if p c then Placed.setPosition i c else c).boardId = c.boardId ∧
      (if p c then Placed.setPosition i c else c).name = c.name ∧
      (if p c then Placed.setPosition i c else c).onSuccessColumnId = c.onSuccessColumnId ∧
      (if p c then Placed.setPosition i c else c).onFailColumnId = c.onFailColumnId := by
    intro c
    split <;> exact ⟨rfl, rfl, rfl, rfl⟩
  refine violation_congr Iff.rfl ?_ ?_
  · simp only [UniqueOk, Table.update, List.pairwise_map, hrows]
  · simp only [ForeignKeysOk, hcolumn]
    simp only [Table.update, List.forall_mem_map, hrows]
    rfl

end Tables

theorem setCardPositionsFrom_run (n : Nat) (ids : List Int) (db : Db) :
    ∃ db', setCardPositionsFrom n ids db = .ok () db' ∧
      db'.toTables = { db.toTables with cards := db.cards.renumberFrom n ids } := by
  induction ids generalizing n db with
  | nil => exact ⟨db, rfl, rfl⟩
  | cons cid ids ih =>
      have hviol := (Tables.violation_setPosition_cards (t := db.toTables)
        (p := fun c => Keyed.key c == cid) (i := n)).trans db.sound
      obtain ⟨db', hrun, htab⟩ := ih (n + 1) ⟨_, hviol⟩
      exact ⟨db', bind_ok.mpr ⟨(), _, exec_total hviol, hrun⟩, htab⟩

theorem setColumnPositionsFrom_run (n : Nat) (ids : List Int) (db : Db) :
    ∃ db', setColumnPositionsFrom n ids db = .ok () db' ∧
      db'.toTables = { db.toTables with columns := db.columns.renumberFrom n ids } := by
  induction ids generalizing n db with
  | nil => exact ⟨db, rfl, rfl⟩
  | cons cid ids ih =>
      have hviol := (Tables.violation_setPosition_columns (t := db.toTables)
        (p := fun c => Keyed.key c == cid) (i := n)).trans db.sound
      obtain ⟨db', hrun, htab⟩ := ih (n + 1) ⟨_, hviol⟩
      exact ⟨db', bind_ok.mpr ⟨(), _, exec_total hviol, hrun⟩, htab⟩

@[simp] theorem setCardPositions_ok {ids : List Int} {db db' : Db} {u : Unit} :
    setCardPositions ids db = .ok u db' ↔
      db'.toTables = { db.toTables with cards := db.cards.renumber ids } := by
  obtain ⟨d, hrun, htab⟩ := setCardPositionsFrom_run 0 ids db
  rw [setCardPositions, hrun]
  constructor
  · intro h
    cases h
    exact htab
  · intro h
    rw [Db.ext_tables (h.trans htab.symm)]

@[simp] theorem setColumnPositions_ok {ids : List Int} {db db' : Db} {u : Unit} :
    setColumnPositions ids db = .ok u db' ↔
      db'.toTables = { db.toTables with columns := db.columns.renumber ids } := by
  obtain ⟨d, hrun, htab⟩ := setColumnPositionsFrom_run 0 ids db
  rw [setColumnPositions, hrun]
  constructor
  · intro h
    cases h
    exact htab
  · intro h
    rw [Db.ext_tables (h.trans htab.symm)]

theorem setCardPositions_total (ids : List Int) : Total (setCardPositions ids) := fun db =>
  have ⟨db', hrun, _⟩ := setCardPositionsFrom_run 0 ids db
  ⟨(), db', hrun⟩

theorem setColumnPositions_total (ids : List Int) : Total (setColumnPositions ids) := fun db =>
  have ⟨db', hrun, _⟩ := setColumnPositionsFrom_run 0 ids db
  ⟨(), db', hrun⟩

end HerdrBoard.Core
