import HerdrBoard.Lifecycle.Runs
import HerdrBoard.Daemon.System

/-!
# What a request does to cards and runs
-/

open Lib HerdrBoard.Core HerdrBoard.Daemon

namespace HerdrBoard.Lifecycle

variable {cfg : Config} {env : Env} {E : Event → Prop}

/-! ## Lock scopes of requests -/

/-- Cards and runs change by events of `E`, and no run is watched or forgotten. -/
def Served (E : Event → Prop) (d d' : DaemonState) : Prop :=
  Via E d.db d'.db ∧ d'.sched.active = d.sched.active

instance : Std.Refl (Served E) := ⟨fun d => ⟨refl_of (Via E) d.db, rfl⟩⟩

instance : IsTrans DaemonState (Served E) :=
  ⟨fun _ _ _ h h' => ⟨trans_of (Via E) h.1 h'.1, h'.2.trans h.2⟩⟩

theorem served_store {α : Type} {x : StoreM α} {d : DaemonState}
    (h : Via E d.db (finalState (x d.db))) : Served E d (finalState (store x d)) := by
  rw [store, finalState_zoom]
  exact ⟨h, rfl⟩

theorem served_keeps {α : Type} {x : StoreM α} (h : KeepsTables life x) (d : DaemonState) :
    Served E d (finalState (store x d)) := served_store (respects_via h d.db)

/-- Neither this image of the store nor the watched runs change. -/
abbrev KeepsStored {α γ : Type} (π : Tables → γ) (x : DaemonM α) : Prop :=
  Keeps (fun d : DaemonState => (π d.db.toTables, d.sched.active)) x

theorem keepsStored_store {α γ : Type} {π : Tables → γ} {x : StoreM α} (h : KeepsTables π x) :
    KeepsStored π (store x) := by
  intro d
  rw [store, finalState_zoom]
  exact congrArg (fun image => (image, d.sched.active)) (h d.db)

theorem served_of_keepsStored {α : Type} {x : DaemonM α} (h : KeepsStored life x)
    (d : DaemonState) : Served E d (finalState (x d)) := by
  have hsame := h d
  simp only [SameBy, Prod.mk.injEq] at hsame
  exact ⟨via_of_eq hsame.1, hsame.2⟩

theorem readOnly_store {α : Type} {x : StoreM α} (h : ReadOnly x) : ReadOnly (store x) := by
  intro d
  rw [store, finalState_zoom, h]

/-- What follows a store computation and leaves the store alone does not show in it. -/
theorem db_store_bind {α β : Type} {x : StoreM α} {k : α → DaemonM β}
    (hk : ∀ a d, (finalState (k a d)).db = d.db) (d : DaemonState) :
    (finalState ((store x >>= k) d)).db = finalState (x d.db) := by
  rw [run_bind]
  unfold store zoom
  cases x d.db with
  | ok a db => exact hk a _
  | error e db => rfl

theorem atomic_store {α : Type} {x : StoreM α} (h : Atomic x) : Atomic (store x) :=
  h.zoom fun _ => rfl

/-- A request ends with bookkeeping outside the store that leaves the watched runs alone. -/
theorem served_modify {α : Type} {f : DaemonState → DaemonState} {a : α} {d : DaemonState}
    (hdb : (f d).db = d.db) (hactive : (f d).sched.active = d.sched.active) :
    Served E d (finalState ((do modify f; pure a : DaemonM α) d)) := by
  show Served E d (f d)
  refine ⟨?_, hactive⟩
  rw [hdb]
  exact refl_of (Via E) d.db

/-! ## Planned runs -/

theorem readOnly_prepareEnqueueValues (card : Card) (columnId : Int) (isRetry : Bool) :
    ReadOnly (prepareEnqueueValues cfg env card columnId isRetry) := by
  refine (readOnly_requireColumn columnId).bind fun column => readOnly_get.bind fun db => ?_
  refine (readOnly_fromExcept _).bind fun _ => (readOnly_fromExcept _).bind fun settings => ?_
  exact (readOnly_fromExcept _).bind fun invocation => readOnly_pure _

/-- `next` was prepared from `card`, which is the stored card as far as its conversation
goes, or new. -/
structure PlannedFrom (cfg : Config) (env : Env) (db : Db) (cardId : Int) (card : Card)
    (isRetry : Bool) (next : EnqueueRun) : Prop where
  prepared : ∃ prepared, prepareEnqueueValues cfg env card next.columnId isRetry db =
    .ok prepared db ∧ prepared.borrowed = next
  conversation : card.sessionId = none ∨
    card.id = cardId ∧ ∃ c, db.card? cardId = some c ∧ c.sessionId = card.sessionId ∧
      c.harness = card.harness

/-- The run was prepared on this store. -/
def Planned (cfg : Config) (env : Env) (db : Db) (cardId : Int) (next : EnqueueRun) : Prop :=
  ∃ card isRetry, PlannedFrom cfg env db cardId card isRetry next

theorem prepared_columnId {card : Card} {columnId : Int} {isRetry : Bool} {db db' : Db}
    {p : PreparedEnqueue} (h : prepareEnqueueValues cfg env card columnId isRetry db = .ok p db') :
    p.columnId = columnId ∧ p.cardId = card.id := by
  simp only [prepareEnqueueValues, bind_ok, pure_ok] at h
  obtain ⟨_, _, -, _, _, -, _, _, -, _, _, -, _, _, -, rfl, -⟩ := h
  exact ⟨rfl, rfl⟩

/-! ## Events of a request -/

/-- The events a request may cause on this store. -/
inductive Causes (cfg : Config) (env : Env) (db : Db) : Request → Event → Prop
  | create (p : CardCreateParams) : Causes cfg env db (.cardCreate p) .create
  | createRun (p : CardCreateParams) (cardId : Int) (next : EnqueueRun)
      (h : Planned cfg env db cardId next) :
      Causes cfg env db (.cardCreate p) (.enqueue cardId next)
  | duplicate (id : Int) : Causes cfg env db (.cardDuplicate id) .create
  | respace (p : CardUpdateParams) : Causes cfg env db (.cardUpdate p) (.respace p.id)
  | remove (id : Int) : Causes cfg env db (.cardDelete id) (.remove id)
  | moveRun (p : CardMoveParams) (next : EnqueueRun) (h : Planned cfg env db p.id next) :
      Causes cfg env db (.cardMove p) (.enqueue p.id next)
  | retry (cardId columnId : Int) (next : EnqueueRun) (h : Planned cfg env db cardId next) :
      Causes cfg env db (.runRetryEnqueue cardId columnId) (.enqueue cardId next)
  | cancel (cardId runId : Int) : Causes cfg env db (.runCancelQueued cardId) (.finish runId)

theorem readOnly_checkNotArchived (card : Card) (columnId : Int) :
    ReadOnly (checkNotArchived card columnId) := by
  refine (readOnly_getBoard _).bind fun _ => (readOnly_refuse _ _).bind fun _ => ?_
  refine (readOnly_getProject _).bind fun _ => (readOnly_refuse _ _).bind fun _ => ?_
  exact (readOnly_requireColumn _).bind fun _ => (readOnly_getBoard _).bind fun _ =>
    readOnly_refuse _ _

theorem readOnly_pendingCreateCard (p : CardCreateParams) : ReadOnly (pendingCreateCard env p) := by
  refine (readOnly_defaultColumnId _).bind fun _ => (readOnly_requireColumn _).bind fun _ => ?_
  exact (readOnly_refuse _ _).bind fun _ => readOnly_pure _

theorem pendingCreateCard_session {p : CardCreateParams} {db db' : Db} {card : Card}
    (h : pendingCreateCard env p db = .ok card db') : card.sessionId = none := by
  simp only [pendingCreateCard, bind_ok, pure_ok] at h
  obtain ⟨_, _, -, _, _, -, _, _, -, rfl, -⟩ := h
  rfl

theorem via_createEntering (p : CardCreateParams) (db : Db) :
    Via (Causes cfg env db (.cardCreate p)) db (finalState (createEntering cfg env p db)) := by
  refine (readOnly_pendingCreateCard p).bind_at fun pending hpending => ?_
  refine (readOnly_requireColumn _).bind_at fun column _ => ?_
  split
  · refine (readOnly_prepareEnqueueValues _ _ _).bind_at fun prepared hprep => ?_
    have hcolumn := (prepared_columnId hprep).1
    have hplanned : ∀ id, Causes cfg env db (.cardCreate p) (.enqueue id prepared.borrowed) := by
      intro id
      refine .createRun p id _
        ⟨pending, false, ⟨prepared, ?_, rfl⟩, .inl (pendingCreateCard_session hpending)⟩
      show prepareEnqueueValues cfg env pending prepared.columnId false db = _
      rw [hcolumn]
      exact hprep
    refine bind_at (respects_createCardAndEnqueueUow env.conn p (.create p) hplanned db)
      fun _ _ _ => ?_
    exact respects_pure _ _
  · exact bind_at (respects_createCard (.create p) env.conn p db) fun _ _ _ => respects_pure _ _

theorem forgetHops_db (entered : Card × Bool) (d : DaemonState) :
    (forgetHops entered d).db = d.db := by
  unfold forgetHops
  split <;> rfl

theorem forgetHops_active (entered : Card × Bool) (d : DaemonState) :
    (forgetHops entered d).sched.active = d.sched.active := by
  unfold forgetHops
  split <;> rfl

theorem served_cardCreate (p : CardCreateParams) (d : DaemonState) :
    Served (Causes cfg env d.db (.cardCreate p)) d (finalState (cardCreate cfg env p d)) := by
  refine (readOnly_fromExcept _).bind_at fun _ _ => ?_
  refine bind_at (served_store (via_createEntering p d.db)) fun entered t _ => ?_
  exact served_modify (forgetHops_db entered t) (forgetHops_active entered t)

/-- Harness and space fields that an update leaves alone keep the card in its space. -/
theorem space_of_not_editsLocked {p : CardUpdateParams}
    (h : CardUpdateParams.editsLocked p = false) (c : Card) :
    SpaceKey.fromCard (patchCard p c) = SpaceKey.fromCard c := by
  simp only [CardUpdateParams.editsLocked, Bool.or_eq_false_iff, Bool.not_eq_false'] at h
  obtain ⟨⟨⟨⟨⟨⟨⟨hharness, -⟩, -⟩, -⟩, hsession⟩, hkind⟩, href⟩, -⟩ := h
  have hpatch : ∀ (q : Patch String) (o : Option String), q.isUnchanged = true → q.apply o = o := by
    intro q o hq
    cases q with
    | unchanged => rfl
    | clear => cases hq
    | set v => cases hq
  have hnone : p.harness = none := Option.not_isSome_iff_eq_none.mp (by simp [hharness])
  have hkind' : p.spaceKind = none := Option.not_isSome_iff_eq_none.mp (by simp [hkind])
  simp [SpaceKey.fromCard, patchCard, patchHarness, hnone, hkind', hpatch _ _ hsession,
    hpatch _ _ href]

theorem served_cardUpdate (p : CardUpdateParams) (d : DaemonState) :
    Served (Causes cfg env d.db (.cardUpdate p)) d (finalState (cardUpdate env p d)) := by
  refine served_store ?_
  refine (readOnly_requireCard _).bind_at fun card _ =>
    (readOnly_fromExcept _).bind_at fun _ _ => ?_
  refine readOnly_get.bind_at fun db hdb => ?_
  obtain ⟨rfl, -⟩ := get_ok.mp hdb
  refine (readOnly_refuse _ _).bind_at fun _ hlocked =>
    (readOnly_fromExcept _).bind_at fun _ _ => ?_
  have hlocked := (refuse_ok.mp hlocked).1
  refine via_updateCard (.respace p) ?_
  cases hedits : CardUpdateParams.editsLocked p with
  | false => exact .inr (space_of_not_editsLocked hedits)
  | true =>
      refine .inl (closed_of_openRunForCard
        (Option.not_isSome_iff_eq_none.mp fun hopen => hlocked ?_))
      exact ⟨hedits, hopen⟩

theorem served_cardDelete (id : Int) (d : DaemonState) :
    Served (Causes cfg env d.db (.cardDelete id)) d (finalState (cardDelete id d)) := by
  refine served_store ((readOnly_requireCard _).bind_at fun card _ =>
    readOnly_get.bind_at fun db hdb => ?_)
  obtain ⟨rfl, -⟩ := get_ok.mp hdb
  refine (readOnly_refuse _ _).bind_at fun _ hopen => ?_
  have hopen := (refuse_ok.mp hopen).1
  exact via_deleteCard (.remove id)
    (closed_of_openRunForCard (Option.not_isSome_iff_eq_none.mp hopen))

theorem served_cardArchive (id : Int) (archived : Bool) (d : DaemonState) :
    Served E d (finalState (cardArchive env id archived d)) := by
  refine served_keeps ?_ d
  refine (readOnly_requireCard id).respects.bind fun card => readOnly_get.respects.bind fun db => ?_
  have hset := keeps_life_setCardArchived env.conn id archived
  refine respects_ite (fun _ => ?_) fun _ => hset
  exact (readOnly_fromExcept _).respects.bind fun _ =>
    (readOnly_refuse _ _).respects.bind fun _ => hset

/-! ## Moving cards -/

theorem readOnly_moveTarget (current : Card) (columnId : Int) :
    ReadOnly (moveTarget current columnId) := by
  refine (readOnly_refuse _ _).bind fun _ => (readOnly_getBoard _).bind fun _ =>
    (readOnly_refuse _ _).bind fun _ => ?_
  refine (readOnly_requireColumn _).bind fun _ => (readOnly_getBoard _).bind fun _ => ?_
  refine (readOnly_refuse _ _).bind fun _ => (readOnly_getProject _).bind fun _ => ?_
  exact (readOnly_refuse _ _).bind fun _ => readOnly_pure _

theorem readOnly_checkTransfer (current : Card) (target : Column) (declared : Option Int) :
    ReadOnly (checkTransfer env current target declared) := by
  cases declared with
  | none => exact readOnly_pure ()
  | some declared =>
      refine (readOnly_getBoard _).bind fun _ => (readOnly_refuse _ _).bind fun _ => ?_
      refine (readOnly_fromExcept _).bind fun _ => (readOnly_fromExcept _).bind fun _ => ?_
      split
      · exact readOnly_fromExcept _
      · exact readOnly_pure ()

theorem via_moveEntering {p : CardMoveParams} {current : Card} {target : Column} {db : Db}
    (hcurrent : db.card? p.id = some current) :
    Via (Causes cfg env db (.cardMove p)) db
      (finalState (moveEntering cfg env p current target db)) := by
  unfold moveEntering
  split
  · refine (readOnly_prepareEnqueueValues _ _ _).bind_at fun prepared hprep => ?_
    obtain ⟨hcolumn, hcard⟩ := prepared_columnId hprep
    have hplanned : Causes cfg env db (.cardMove p) (.enqueue p.id prepared.borrowed) := by
      refine .moveRun p _ ⟨current, false, ⟨prepared, ?_, rfl⟩, .inr ?_⟩
      · show prepareEnqueueValues cfg env current prepared.columnId false db = _
        rw [hcolumn]
        exact hprep
      · exact ⟨Table.key_of_find? hcurrent, current, hcurrent, rfl, rfl⟩
    cases crossBoard p current with
    | none =>
        exact ((respects_moveCardAndEnqueueUow env.conn _ _ _ hplanned).bind fun _ =>
          respects_pure _) db
    | some board =>
        exact ((respects_transferCardAndEnqueueUow env.conn _ _ _ _ hplanned).bind fun _ =>
          respects_pure _) db
  · cases crossBoard p current with
    | none => exact ((respects_via (keeps_moveCard placeBlind_life _ _ _ _)).bind fun _ =>
        respects_pure _) db
    | some board =>
        exact ((respects_via (keeps_life_transferCard _ _ _ _ _)).bind fun _ => respects_pure _) db

theorem served_cardMove (p : CardMoveParams) (d : DaemonState) :
    Served (Causes cfg env d.db (.cardMove p)) d (finalState (cardMove cfg env p d)) := by
  refine bind_at (served_store ?_) fun entered t _ => ?_
  · refine (readOnly_requireCard _).bind_at fun current hcurrent => ?_
    have hfind := (requireCard_ok.mp hcurrent).1
    refine (readOnly_moveTarget _ _).bind_at fun target _ => ?_
    split
    · exact ((respects_via (keeps_moveCard placeBlind_life _ _ _ _)).bind fun _ => respects_pure _)
        d.db
    · exact (readOnly_checkTransfer _ _ _).bind_at fun _ _ => via_moveEntering hfind
  · exact served_modify (forgetHops_db entered t) (forgetHops_active entered t)

/-! ## Runs -/

theorem served_enqueueRun (cardId columnId : Int) (d : DaemonState) :
    Served (Causes cfg env d.db (.runRetryEnqueue cardId columnId)) d
      (finalState (enqueueRun cfg env cardId columnId true d)) := by
  refine served_store ((readOnly_requireCard _).bind_at fun card hcard =>
    (readOnly_refuse _ _).bind_at fun _ _ => ?_)
  have hfind := (requireCard_ok.mp hcard).1
  have hid : card.id = cardId := Table.key_of_find? hfind
  have hcheck : ReadOnly (checkNotArchived card columnId) := by
    refine (readOnly_getBoard _).bind fun _ => (readOnly_refuse _ _).bind fun _ => ?_
    refine (readOnly_getProject _).bind fun _ => (readOnly_refuse _ _).bind fun _ => ?_
    exact (readOnly_requireColumn _).bind fun _ => (readOnly_getBoard _).bind fun _ =>
      readOnly_refuse _ _
  refine hcheck.bind_at fun _ _ => readOnly_get.bind_at fun _ _ => ?_
  refine (readOnly_refuse _ _).bind_at fun _ _ => (readOnly_refuse _ _).bind_at fun _ _ => ?_
  refine (readOnly_prepareEnqueueValues _ _ _).bind_at fun prepared hprep => ?_
  obtain ⟨hcolumn, hprepCard⟩ := prepared_columnId hprep
  have hcardId : prepared.cardId = cardId := hprepCard.trans hid
  refine respects_enqueueRunUow env.conn ?_ d.db
  show Causes cfg env d.db _ (.enqueue prepared.cardId prepared.borrowed)
  rw [hcardId]
  refine .retry cardId columnId _
    ⟨card, true, ⟨prepared, ?_, rfl⟩, .inr ⟨hid, card, hfind, rfl, rfl⟩⟩
  show prepareEnqueueValues cfg env card prepared.columnId true d.db = _
  rw [hcolumn]
  exact hprep

/-- Finalizing a run that leaves its card with a closed status and inserts no run. -/
theorem via_finalize {p : FinalizeRun} (hE : E (.finish p.runId)) (hnext : p.next = none)
    (hreason : p.finalAwaitingReason = none) (hstatus : isClosedStatus p.finalStatus) :
    Respects (Via E) (finalizeRunUow env.conn p) := by
  refine (finalizeRunUow_atomic p).respects fun db effects db' h => ?_
  obtain ⟨run, hfind, hopen, hlife⟩ := life_finalize hnext hreason h
  have hid : run.id = p.runId := Table.key_of_find? hfind
  exact via_step (hid ▸ hE) (.finish run _ _ _ _ (Table.mem_of_find? hfind) hopen hstatus) hlife

theorem served_cancelQueued (cardId : Int) (d : DaemonState) :
    Served (Causes cfg env d.db (.runCancelQueued cardId)) d
      (finalState (cancelQueued env cardId d)) := by
  refine bind_at (served_store ?_) fun _ t _ => ?_
  · refine readOnly_get.bind_at fun db hdb => (readOnly_okOr _ _).bind_at fun queued _ => ?_
    exact via_finalize (.cancel cardId queued.id) rfl rfl (.inr (.inl rfl)) d.db
  · exact served_modify rfl rfl

theorem keeps_retryReset {γ : Type} (π : Tables → γ) (cardId : Int) :
    KeepsStored π (retryReset cardId) := by
  refine (readOnly_store ?_).respects.bind fun card => ?_
  · refine (readOnly_requireCard _).bind fun _ => (readOnly_refuse _ _).bind fun _ => ?_
    refine (readOnly_getBoard _).bind fun _ => (readOnly_refuse _ _).bind fun _ => ?_
    refine (readOnly_getProject _).bind fun _ => (readOnly_refuse _ _).bind fun _ => ?_
    exact readOnly_get.bind fun _ => (readOnly_refuse _ _).bind fun _ => readOnly_pure _
  · exact fun _ => rfl

/-! ## Comments and columns -/

section

variable {γ : Type} {π : Tables → γ}

theorem keeps_commentAdd (hπ : CommentBlind π) (p : CommentAddParams) :
    KeepsStored π (commentAdd env p) := by
  refine keepsStored_store
    ((readOnly_requireCard _).respects.bind fun card => readOnly_get.respects.bind fun db => ?_)
  exact (readOnly_fromExcept _).respects.bind fun _ => keeps_addComment hπ _ _ _ _

theorem readOnly_commentForMutation (id : Int) (actor : Option Int) :
    ReadOnly (commentForMutation id actor) := by
  refine (readOnly_requireComment id).bind fun comment => readOnly_get.bind fun db => ?_
  have hrest : ReadOnly (do
      let _ ← requireCard comment.cardId
      pure comment : StoreM Comment) := (readOnly_requireCard _).bind fun _ => readOnly_pure _
  cases actor with
  | none => exact hrest
  | some runId => exact (readOnly_fromExcept _).bind fun _ => hrest

theorem keeps_commentUpdate (hπ : CommentBlind π) (id : Int) (body : String) (actor : Option Int) :
    KeepsStored π (commentUpdate env id body actor) :=
  keepsStored_store ((readOnly_commentForMutation id actor).respects.bind fun _ =>
    keeps_updateComment hπ _ _ _)

theorem keeps_commentDelete (hπ : CommentBlind π) (id : Int) (actor : Option Int) :
    KeepsStored π (commentDelete env id actor) :=
  keepsStored_store ((readOnly_commentForMutation id actor).respects.bind fun _ =>
    (keeps_softDeleteComment hπ _ _).bind fun _ => respects_pure _)

theorem keeps_columnCreate (hπ : ColumnBlind π) (p : ColumnCreateParams) :
    KeepsStored π (columnCreate env p) :=
  (readOnly_fromExcept _).respects.bind fun _ => keepsStored_store (keeps_createColumn hπ p)

theorem keeps_columnUpdate (hπ : ColumnBlind π) (p : ColumnUpdateParams) :
    KeepsStored π (columnUpdate env p) :=
  keepsStored_store ((readOnly_requireColumn _).respects.bind fun _ =>
    (readOnly_fromExcept _).respects.bind fun _ => keeps_updateColumn hπ p)

theorem keeps_columnDelete (hplaces : PlaceBlind π) (hcolumns : ColumnBlind π) (id : Int)
    (dst : Option Int) : KeepsStored π (columnDelete env id dst) :=
  keepsStored_store (readOnly_get.respects.bind fun _ => (readOnly_fromExcept _).respects.bind
    fun _ => keeps_deleteColumn hplaces hcolumns _ _ _)

theorem keeps_templateApply (hπ : ColumnBlind π) (boardId : Int) :
    KeepsStored π (templateApply boardId) := by
  refine keepsStored_store
    ((readOnly_getBoard _).respects.bind fun _ => readOnly_get.respects.bind fun db => ?_)
  split
  · exact (readOnly_refuse _ _).respects.bind fun _ => keeps_applyTemplateColumnsUow hπ _ _ _
  · exact respects_throw _

end

/-! ## Every request -/

theorem served_request (d : DaemonState) (r : Request) :
    Served (Causes cfg env d.db r) d (serveRequest cfg env d r) := by
  cases r with
  | cardCreate p => exact served_cardCreate p d
  | cardDuplicate id => exact served_store (respects_duplicateCard (.duplicate id) env.conn id d.db)
  | cardUpdate p => exact served_cardUpdate p d
  | cardDelete id => exact served_cardDelete id d
  | cardArchive id archived => exact served_cardArchive id archived d
  | cardMove p => exact served_cardMove p d
  | commentAdd p => exact served_of_keepsStored (keeps_commentAdd commentBlind_life p) d
  | commentUpdate id body actor =>
      exact served_of_keepsStored (keeps_commentUpdate commentBlind_life id body actor) d
  | commentDelete id actor =>
      exact served_of_keepsStored (keeps_commentDelete commentBlind_life id actor) d
  | runRetryReset cardId => exact served_of_keepsStored (keeps_retryReset life cardId) d
  | runRetryEnqueue cardId columnId => exact served_enqueueRun cardId columnId d
  | runCancelQueued cardId => exact served_cancelQueued cardId d
  | columnCreate p => exact served_of_keepsStored (keeps_columnCreate columnBlind_life p) d
  | columnUpdate p => exact served_of_keepsStored (keeps_columnUpdate columnBlind_life p) d
  | columnReorder id position =>
      exact served_keeps (keeps_reorderColumn columnBlind_life id position) d
  | columnDelete id dst =>
      exact served_of_keepsStored (keeps_columnDelete placeBlind_life columnBlind_life id dst) d
  | templateApply boardId =>
      exact served_of_keepsStored (keeps_templateApply columnBlind_life boardId) d
  | boardOpen scopePath =>
      exact served_keeps (keeps_openBoard siteBlind_life columnBlind_life scopePath) d
  | boardCreate projectId name =>
      exact served_keeps (keeps_createBoard siteBlind_life columnBlind_life projectId name) d
  | boardSelect boardId => exact served_keeps (keeps_selectBoard siteBlind_life.picker boardId) d
  | boardRename boardId name => exact served_keeps (keeps_renameBoard siteBlind_life boardId name) d
  | boardArchive boardId archived =>
      exact served_keeps (keeps_setBoardArchived siteBlind_life env.conn boardId archived) d
  | projectCreate scopePath =>
      exact served_keeps (keeps_createProjectContext siteBlind_life columnBlind_life scopePath) d
  | projectOpen scopePath =>
      exact served_keeps (keeps_openProjectContext siteBlind_life columnBlind_life scopePath) d
  | projectSelect scopePath boardId =>
      exact served_keeps (keeps_selectProjectByScope siteBlind_life.picker scopePath boardId) d
  | projectArchive scopePath archived =>
      exact served_keeps (keeps_setProjectArchived siteBlind_life env.conn scopePath archived) d

end HerdrBoard.Lifecycle
