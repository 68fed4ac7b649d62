import HerdrBoard.Core.Db.Runs
import HerdrBoard.Core.Db.Projects

/-!
# Reads and single statements

What the queries answer, that they leave the store as it is, and which images of the tables a
statement keeps. -/

namespace HerdrBoard.Core

open Lib

variable {db db' : Db}

/-! ## Rows by id -/

@[simp] theorem getProject_ok {id : Int} {p : Project} :
    getProject id db = .ok p db' ↔ db.project? id = some p ∧ db = db' := by
  simp [getProject, and_comm]

@[simp] theorem getBoard_ok {id : Int} {b : Board} :
    getBoard id db = .ok b db' ↔ db.board? id = some b ∧ db = db' := by
  simp [getBoard, and_comm]

@[simp] theorem requireColumn_ok {id : Int} {c : Column} :
    requireColumn id db = .ok c db' ↔ db.column? id = some c ∧ db = db' := by
  simp [requireColumn, and_comm]

@[simp] theorem requireCard_ok {id : Int} {c : Card} :
    requireCard id db = .ok c db' ↔ db.card? id = some c ∧ db = db' := by
  simp [requireCard, and_comm]

@[simp] theorem getRun_ok {id : Int} {r : Run} :
    getRun id db = .ok r db' ↔ db.run? id = some r ∧ db = db' := by
  simp [getRun, and_comm]

@[simp] theorem requireComment_ok {id : Int} {m : Comment} :
    requireComment id db = .ok m db' ↔ db.comments.find? id = some m ∧ db = db' := by
  simp [requireComment, and_comm]

@[simp] theorem defaultColumnId_ok {boardId id : Int} :
    defaultColumnId boardId db = .ok id db' ↔
      (∃ c, (db.listColumns boardId).head? = some c ∧ c.id = id) ∧ db = db' := by
  simp [defaultColumnId]
  tauto

/-- A query that reads a row or fails. -/
theorem readOnly_lookup {α : Type} (f : Db → Option α) (e : Error) :
    ReadOnly (do let db ← get; okOr (f db) e : StoreM α) :=
  readOnly_get.bind fun _ => readOnly_okOr _ _

theorem readOnly_getProject (id : Int) : ReadOnly (getProject id) := readOnly_lookup _ _

theorem readOnly_getBoard (id : Int) : ReadOnly (getBoard id) := readOnly_lookup _ _

theorem readOnly_requireColumn (id : Int) : ReadOnly (requireColumn id) := readOnly_lookup _ _

theorem readOnly_requireCard (id : Int) : ReadOnly (requireCard id) := readOnly_lookup _ _

theorem readOnly_getRun (id : Int) : ReadOnly (getRun id) := readOnly_lookup _ _

theorem readOnly_requireComment (id : Int) : ReadOnly (requireComment id) := readOnly_lookup _ _

theorem readOnly_defaultColumnId (boardId : Int) : ReadOnly (defaultColumnId boardId) :=
  readOnly_get.bind fun _ => (readOnly_okOr _ _).bind fun _ => readOnly_pure _

/-- A row that is there is found. -/
theorem requireCard_run {id : Int} {c : Card} (h : db.card? id = some c) :
    requireCard id db = .ok c db :=
  requireCard_ok.mpr ⟨h, rfl⟩

theorem getRun_run {id : Int} {r : Run} (h : db.run? id = some r) : getRun id db = .ok r db :=
  getRun_ok.mpr ⟨h, rfl⟩

theorem requireColumn_run {id : Int} {c : Column} (h : db.column? id = some c) :
    requireColumn id db = .ok c db := requireColumn_ok.mpr ⟨h, rfl⟩

/-! ## Checks -/

/-- The column named by a transition, if any, is on the board. -/
def Db.TargetOn (db : Db) (boardId : Int) (target : Option Int) : Prop :=
  ∀ id, target = some id → ∃ c, db.column? id = some c ∧ c.boardId = boardId

@[simp] theorem validateColumnTarget_ok {boardId : Int} {target : Option Int} {u : Unit} :
    validateColumnTarget boardId target db = .ok u db' ↔ db.TargetOn boardId target ∧ db = db' := by
  cases target with
  | none => simp [validateColumnTarget, Db.TargetOn]
  | some id =>
      simp only [validateColumnTarget, Db.TargetOn, bind_ok, requireColumn_ok, refuse_ok,
        Option.some.injEq, not_not, forall_eq']
      constructor
      · rintro ⟨c, _, ⟨hc, rfl⟩, hb, rfl⟩
        exact ⟨⟨c, hc, hb⟩, rfl⟩
      · rintro ⟨⟨c, hc, hb⟩, rfl⟩
        exact ⟨c, db, ⟨hc, rfl⟩, hb, rfl⟩

@[simp] theorem validateColumnTargets_ok {boardId : Int}
    {onSuccess onFail : Option Int} {u : Unit} :
    validateColumnTargets boardId onSuccess onFail db = .ok u db' ↔
      db.TargetOn boardId onSuccess ∧ db.TargetOn boardId onFail ∧ db = db' := by
  simp [validateColumnTargets, and_assoc]

theorem readOnly_validateColumnTarget (boardId : Int) (target : Option Int) :
    ReadOnly (validateColumnTarget boardId target) := by
  cases target with
  | none => exact readOnly_pure ()
  | some id => exact (readOnly_requireColumn id).bind fun _ => readOnly_refuse _ _

theorem readOnly_validateColumnTargets (boardId : Int) (onSuccess onFail : Option Int) :
    ReadOnly (validateColumnTargets boardId onSuccess onFail) :=
  (readOnly_validateColumnTarget _ _).bind fun _ => readOnly_validateColumnTarget _ _

theorem readOnly_checkTemplateSpecs (boardId : Int) (specs : List ColumnCreateParams) :
    ReadOnly (checkTemplateSpecs boardId specs) := by
  induction specs with
  | nil => exact readOnly_pure ()
  | cons spec specs ih =>
      exact (readOnly_refuse _ _).bind fun _ => (readOnly_refuse _ _).bind fun _ => ih

theorem readOnly_resolveTarget (boardId : Int) (ids : List Int) (target : Option ColumnTarget) :
    ReadOnly (resolveTarget boardId ids target) := by
  cases target with
  | none => exact readOnly_pure none
  | some target =>
      cases target with
      | created index => exact (readOnly_okOr _ _).bind fun _ => readOnly_pure _
      | existing id =>
          exact (readOnly_requireColumn id).bind fun _ => (readOnly_refuse _ _).bind fun _ =>
            readOnly_pure _

theorem readOnly_checkDestination (boardId : Int) (dst : Option Int) :
    ReadOnly (checkDestination boardId dst) := by
  cases dst with
  | none => exact readOnly_pure ()
  | some dst => exact (readOnly_requireColumn dst).bind fun _ => readOnly_refuse _ _

theorem readOnly_checkNext (cardId : Int) (next : Option EnqueueRun) :
    ReadOnly (checkNext cardId next) := by
  cases next with
  | none => exact readOnly_pure ()
  | some next => exact (readOnly_refuse _ _).bind fun _ => readOnly_get.bind fun _ =>
      readOnly_refuse _ _

theorem readOnly_getNextRun (id : Option Int) : ReadOnly (getNextRun id) := by
  cases id with
  | none => exact readOnly_pure none
  | some id => exact (readOnly_getRun id).bind fun _ => readOnly_pure _

theorem readOnly_lifecycleFault (conn : Conn) (point : LifecycleFaultPoint) :
    ReadOnly (lifecycleFault conn point) := by
  unfold lifecycleFault
  cases conn.lifecycleFaultHook with
  | none => exact readOnly_pure ()
  | some hook => exact readOnly_fromExcept _

/-! ## Projects -/

theorem readOnly_mainBoard (projectId : Int) : ReadOnly (mainBoard projectId) := by
  refine readOnly_get.bind fun db => ?_
  split
  · exact readOnly_pure _
  · exact readOnly_okOr _ _

theorem readOnly_projectContextBoard (projectId : Int) :
    ReadOnly (projectContextBoard projectId) := by
  refine readOnly_get.bind fun db => ?_
  split
  · exact readOnly_mainBoard projectId
  · refine (readOnly_getBoard _).bind fun board => ?_
    split
    · exact readOnly_pure board
    · split
      · exact readOnly_pure _
      · exact readOnly_mainBoard projectId

theorem readOnly_requireProjectByScope (scopePath : String) :
    ReadOnly (requireProjectByScope scopePath) :=
  readOnly_lookup _ _

theorem readOnly_selectedBoard (project : Project) (boardId : Option Int) :
    ReadOnly (selectedBoard project boardId) := by
  cases boardId with
  | none => exact readOnly_projectContextBoard project.id
  | some id =>
      exact (readOnly_getBoard id).bind fun _ => (readOnly_refuse _ _).bind fun _ => readOnly_pure _

/-! ## Statements that leave an image of the tables as it is -/

/-- A computation that does not change an image of the tables. -/
abbrev KeepsTables {α γ : Type} (π : Tables → γ) (x : StoreM α) : Prop :=
  Keeps (fun db : Db => π db.toTables) x

section Statements

variable {γ : Type} {π : Tables → γ}

theorem keeps_exec {f : Tables → Tables} (h : ∀ t, π (f t) = π t) : KeepsTables π (exec f) := by
  refine (exec_atomic f).respects fun db _ db' hok => ?_
  have htab := exec_ok.mp hok
  exact (congrArg π htab).trans (h db.toTables)

/-- A statement between two reads. -/
theorem keeps_execBetween {α : Type} {f : Tables → Tables} {g : Db → α} (h : ∀ t, π (f t) = π t) :
    KeepsTables π (do let db ← get; exec f; pure (g db) : StoreM α) :=
  readOnly_get.respects.bind fun _ => (keeps_exec h).bind fun _ => respects_pure _

theorem keeps_updateCards {p : Card → Bool} {f : Card → Card} {hkey}
    (h : ∀ t : Tables, π { t with cards := t.cards.update p f hkey } = π t) :
    KeepsTables π (updateCards p f hkey) := keeps_execBetween h

theorem keeps_rejectDuplicate {α : Type} {duplicate : String} {x : StoreM α} (h : KeepsTables π x) :
    KeepsTables π (rejectDuplicate duplicate x) := by
  intro db
  have := h db
  unfold rejectDuplicate
  split
  · next heq => rwa [heq] at this
  · exact this

theorem keeps_setColumnPositions (h : ∀ (t : Tables) c, π { t with columns := c } = π t)
    (ids : List Int) : KeepsTables π (setColumnPositions ids) := by
  refine (setColumnPositions_total ids).atomic.respects fun db _ db' hok => ?_
  have htab := setColumnPositions_ok.mp hok
  exact (congrArg π htab).trans (h db.toTables _)

end Statements

end HerdrBoard.Core
