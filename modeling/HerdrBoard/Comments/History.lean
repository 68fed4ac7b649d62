import HerdrBoard.Comments.Timeline
import HerdrBoard.Lifecycle.Sheltered

/-!
# Comment histories

In every run of the daemon the history of a comment is the list of the bodies it has had.
-/

open Lib HerdrBoard.Core HerdrBoard.Daemon HerdrBoard.Lifecycle

namespace HerdrBoard.Comments

variable {cfg : Config} {env : Env} {db db' : Db} {d d' : DaemonState}

/-! ## Requests that at most add comments -/

/-- Comments have been added to the store of the daemon. -/
def AddsTo (d d' : DaemonState) : Prop := AddsDb d.db d'.db

instance : Std.Refl AddsTo := ⟨fun d => refl_of AddsDb d.db⟩

instance : IsTrans DaemonState AddsTo := ⟨fun _ _ _ h h' => trans_of AddsDb h h'⟩

theorem adds_store {α : Type} {x : StoreM α} (h : Respects AddsDb x) :
    Respects AddsTo (store x) := by
  intro d
  rw [store, finalState_zoom]
  exact h d.db

theorem adds_modify {f : DaemonState → DaemonState} (hf : ∀ d, (f d).db = d.db) :
    Respects AddsTo (modify f : DaemonM PUnit) := by
  intro d
  show AddsDb d.db (f d).db
  rw [hf]
  exact refl_of AddsDb d.db

theorem quiet_store {α : Type} {x : StoreM α} (h : KeepsTables talk x) :
    Respects AddsTo (store x) := adds_store (adds_keeps h)

theorem quiet_keepsStored {α : Type} {x : DaemonM α} (h : KeepsStored talk x) : Respects AddsTo x :=
  h.mono fun _ _ hst => .of_talk (Prod.mk.inj hst).1

theorem placeBlind_talk : PlaceBlind talk := placeBlind_of_workBlind workBlind_talk

theorem quiet_createEntering (p : CardCreateParams) :
    KeepsTables talk (createEntering cfg env p) := by
  refine (readOnly_pendingCreateCard p).respects.bind fun pending =>
    (readOnly_requireColumn _).respects.bind fun column => ?_
  refine respects_ite (fun _ => ?_) fun _ => ?_
  · refine (readOnly_prepareEnqueueValues _ _ _).respects.bind fun _ => ?_
    exact (keeps_createCardAndEnqueueUow workBlind_talk p _).bind fun _ => respects_pure _
  · exact (keeps_createCard workBlind_talk p).bind fun _ => respects_pure _

theorem quiet_cardCreate (p : CardCreateParams) : Respects AddsTo (cardCreate cfg env p) := by
  refine (readOnly_fromExcept _).respects.bind fun _ =>
    (quiet_store (quiet_createEntering p)).bind fun entered => ?_
  exact (adds_modify (forgetHops_db entered)).bind fun _ => respects_pure _

theorem quiet_cardUpdate (p : CardUpdateParams) : Respects AddsTo (cardUpdate env p) := by
  refine quiet_store ((readOnly_requireCard _).respects.bind fun card =>
    (readOnly_fromExcept _).respects.bind fun _ => ?_)
  refine readOnly_get.respects.bind fun db => (readOnly_refuse _ _).respects.bind fun _ => ?_
  exact (readOnly_fromExcept _).respects.bind fun _ => keeps_updateCard workBlind_talk p

theorem quiet_cardArchive (id : Int) (archived : Bool) :
    Respects AddsTo (cardArchive env id archived) := by
  have hwrite : KeepsTables talk (setCardArchived env.conn id archived) :=
    keeps_setCardArchived workBlind_talk id archived
  refine quiet_store ((readOnly_requireCard id).respects.bind fun card =>
    readOnly_get.respects.bind fun db => ?_)
  cases archived with
  | true => exact (readOnly_fromExcept _).respects.bind fun _ =>
      (readOnly_refuse _ _).respects.bind fun _ => hwrite
  | false => exact hwrite

theorem quiet_moveEntering (p : CardMoveParams) (current : Card) (target : Column) :
    KeepsTables talk (moveEntering cfg env p current target) := by
  refine respects_ite (fun _ => ?_) fun _ => ?_
  · refine (readOnly_prepareEnqueueValues _ _ _).respects.bind fun prepared => ?_
    cases crossBoard p current with
    | some board => exact (keeps_transferCardAndEnqueueUow workBlind_talk _ _ _ _ _).bind fun _ =>
        respects_pure _
    | none => exact (keeps_moveCardAndEnqueueUow workBlind_talk _ _ _ _).bind fun _ =>
        respects_pure _
  · cases crossBoard p current with
    | some board => exact (keeps_transferCard workBlind_talk _ _ _ _).bind fun _ => respects_pure _
    | none => exact (keeps_moveCard placeBlind_talk _ _ _ _).bind fun _ => respects_pure _

theorem quiet_cardMove (p : CardMoveParams) : Respects AddsTo (cardMove cfg env p) := by
  have hwithin : KeepsTables talk (moveWithin cfg env p) := by
    refine (readOnly_requireCard _).respects.bind fun current =>
      (readOnly_moveTarget _ _).respects.bind fun target => ?_
    refine respects_ite (fun _ => (keeps_moveCard placeBlind_talk _ _ _ _).bind fun _ =>
      respects_pure _) fun _ => ?_
    exact (readOnly_checkTransfer _ _ _).respects.bind fun _ => quiet_moveEntering p current target
  exact (quiet_store hwithin).bind fun moved => (adds_modify (forgetHops_db moved)).bind fun _ =>
    respects_pure _

theorem quiet_enqueueRun (cardId columnId : Int) (isRetry : Bool) :
    Respects AddsTo (enqueueRun cfg env cardId columnId isRetry) := by
  refine quiet_store ((readOnly_requireCard _).respects.bind fun card =>
    (readOnly_refuse _ _).respects.bind fun _ => ?_)
  refine (readOnly_checkNotArchived _ _).respects.bind fun _ =>
    readOnly_get.respects.bind fun db => ?_
  refine (readOnly_refuse _ _).respects.bind fun _ =>
    (readOnly_refuse _ _).respects.bind fun _ => ?_
  exact (readOnly_prepareEnqueueValues _ _ _).respects.bind fun _ =>
    keeps_enqueueRunUow workBlind_talk _

theorem adds_cancelQueued (cardId : Int) : Respects AddsTo (cancelQueued env cardId) := by
  refine (adds_store (readOnly_get.respects.bind fun db => (readOnly_okOr _ _).respects.bind
    fun queued => ?_)).bind fun _ => ?_
  · exact adds_finalizeRunUow _
  · refine Respects.bind (adds_modify ?_) fun _ => respects_pure _
    exact fun _ => rfl

theorem adds_commentAdd (p : CommentAddParams) : Respects AddsTo (commentAdd env p) := by
  refine adds_store ((readOnly_requireCard _).respects.bind fun card =>
    readOnly_get.respects.bind fun db => ?_)
  exact (readOnly_fromExcept _).respects.bind fun author => adds_addComment _ _ _ _

/-! ## Requests that edit, mark or drop comments -/

theorem requireComment_succeeds {id : Int} (h : db.hasComment id = true) :
    ∃ m db', requireComment id db = .ok m db' := by
  obtain ⟨m, hm⟩ := Option.isSome_iff_exists.mp h
  exact ⟨m, db, requireComment_ok.mpr ⟨hm, rfl⟩⟩

theorem hasComment_of_requireComment {id : Int} {m : Comment}
    (h : requireComment id db = .ok m db') :
    db.hasComment id = true := Option.isSome_iff_exists.mpr ⟨m, (requireComment_ok.mp h).1⟩

theorem keeps_hasComment {id : Int} {p : Comment → Bool} {f : Comment → Comment} {hkey} :
    KeepsTables (fun t => t.hasComment id)
      (exec fun t => { t with comments := t.comments.update p f hkey }) :=
  keeps_exec fun t => by simp [Tables.hasComment, Table.find?_update]

/-- The history is not looked at. -/
theorem keeps_hasComment_history {id : Int} {f : Tables → Table CommentHistory} :
    KeepsTables (fun t => t.hasComment id) (exec fun t => { t with commentHistory := f t }) :=
  keeps_exec fun t => by simp [Tables.hasComment]

theorem updateComment_atomic (conn : Conn) (id : Int) (body : String) :
    Atomic (updateComment conn id body) := by
  intro db
  refine (readOnly_requireComment id).bind_atomicAt fun current hcurrent => ?_
  refine (readOnly_refuse _ _).bind_atomicAt fun _ _ =>
    (readOnly_refuse _ _).bind_atomicAt fun _ _ => ?_
  refine ((atomic_transaction _).atomicAt db).bind_succeeds fun u db' h =>
    requireComment_succeeds ?_
  refine Eq.trans ?_ (hasComment_of_requireComment hcurrent)
  refine Respects.ok (R := SameBy fun db : Db => db.hasComment id) (Respects.transaction ?_) h
  refine readOnly_get.respects.bind fun _ => keeps_hasComment.bind fun _ =>
    (readOnly_refuse _ _).respects.bind fun _ => ?_
  exact keeps_hasComment_history

theorem softDeleteComment_atomic (conn : Conn) (id : Int) : Atomic (softDeleteComment conn id) := by
  intro db
  refine (readOnly_requireComment id).bind_atomicAt fun current hcurrent => ?_
  refine (readOnly_refuse _ _).bind_atomicAt fun _ _ =>
    (readOnly_refuse _ _).bind_atomicAt fun _ _ => ?_
  refine ((atomic_transaction _).atomicAt db).bind_succeeds fun u db' h =>
    requireComment_succeeds ?_
  refine Eq.trans ?_ (hasComment_of_requireComment hcurrent)
  refine Respects.ok (R := SameBy fun db : Db => db.hasComment id) (Respects.transaction ?_) h
  exact keeps_hasComment.bind fun _ => readOnly_get.respects.bind fun _ => keeps_hasComment_history

theorem commentAdd_atomic (p : CommentAddParams) : Atomic (commentAdd env p) := by
  refine atomic_store ((readOnly_requireCard _).bind_atomic fun card =>
    readOnly_get.bind_atomic fun db => ?_)
  refine (readOnly_fromExcept _).bind_atomic fun author =>
    (readOnly_requireCard _).bind_atomic fun _ => ?_
  refine (insertComment_atomic _ _ _).bind_succeeds fun db k db' h => ?_
  obtain ⟨rfl, htables⟩ := insertComment_ok h
  have hfound : db'.comments.find? db.comments.nextKey =
      some (newComment env.conn card.id author p.body db.comments.nextKey) := by
    rw [htables, Table.find?_insert, if_pos rfl]
  exact ⟨_, db', okOr_run hfound _⟩

theorem commentUpdate_atomic (id : Int) (body : String) (actor : Option Int) :
    Atomic (commentUpdate env id body actor) :=
  atomic_store ((readOnly_commentForMutation id actor).bind_atomic fun _ =>
    updateComment_atomic _ _ _)

theorem commentDelete_atomic (id : Int) (actor : Option Int) :
    Atomic (commentDelete env id actor) :=
  atomic_store ((readOnly_commentForMutation id actor).bind_atomic fun _ =>
    (softDeleteComment_atomic _ _).bind_total fun _ => total_pure _)

theorem finalizeRunInner_atomic (runId : Int) (outcome : RunOutcome)
    (summary extraComment : Option String) (kill transition : Bool) (timeoutAt : Option Instant) :
    Atomic (finalizeRunInner cfg env runId outcome summary extraComment kill transition
      timeoutAt) := by
  refine (readOnly_store (readOnly_getRun _)).bind_atomic fun existing => atomic_ite ?_ ?_
  · exact (readOnly_store (readOnly_requireCard _)).bind_atomic fun _ => (total_pure _).atomic
  · refine readOnly_get.bind_atomic fun d => atomic_ite (total_pure _).atomic ?_
    refine (readOnly_store (readOnly_requireCard _)).bind_atomic fun card => ?_
    have hcommits : ∀ plan : TransitionPlan, Atomic (do
        let effects ← store (finalizeRunUow env.conn
            (plan.finalize runId outcome summary extraComment))
        modify fun d => settleFinalized d runId card.id plan.nextHops kill
        pure (some (effects.finishedRun, effects.card)) : DaemonM (Option (Run × Card))) :=
          fun plan =>
      (atomic_store (finalizeRunUow_atomic _)).bind_total fun effects =>
        (total_modify _).bind fun _ => total_pure _
    cases transition with
    | true => exact (readOnly_store (readOnly_planTransition _ _ _ _ _)).bind_atomic hcommits
    | false => exact hcommits _

/-- Only a stale timeout is let go. -/
theorem finalizeRunInner_some {runId : Int} {outcome : RunOutcome}
    {summary extraComment : Option String} {kill transition : Bool}
    {finished : Option (Run × Card)}
    (h : finalizeRunInner cfg env runId outcome summary extraComment kill transition none d =
    .ok finished d') : finished.isSome := by
  obtain ⟨existing, _, -, h⟩ := bind_ok.mp h
  rcases ite_ok.mp h with ⟨-, h⟩ | ⟨-, h⟩
  · obtain ⟨_, _, -, h⟩ := bind_ok.mp h
    rw [← (pure_ok.mp h).1]
    rfl
  · obtain ⟨_, _, -, h⟩ := bind_ok.mp h
    rcases ite_ok.mp h with ⟨hstale, -⟩ | ⟨-, h⟩
    · cases hstale
    · obtain ⟨card, _, -, h⟩ := bind_ok.mp h
      cases transition with
      | true =>
          obtain ⟨_, _, -, h⟩ := bind_ok.mp h
          obtain ⟨_, _, -, h⟩ := bind_ok.mp h
          obtain ⟨_, _, -, h⟩ := bind_ok.mp h
          rw [← (pure_ok.mp h).1]
          rfl
      | false =>
          obtain ⟨_, _, -, h⟩ := bind_ok.mp h
          obtain ⟨_, _, -, h⟩ := bind_ok.mp h
          rw [← (pure_ok.mp h).1]
          rfl

theorem finalizeRun_atomic (runId : Int) (outcome : RunOutcome)
    (summary extraComment : Option String) (kill transition : Bool) :
    Atomic (finalizeRun cfg env runId outcome summary extraComment kill transition) := by
  refine (finalizeRunInner_atomic _ _ _ _ _ _ _).bind_succeeds fun d finished d' h => ?_
  obtain ⟨pair, rfl⟩ := Option.isSome_iff_exists.mp (finalizeRunInner_some h)
  exact ⟨pair, d', rfl⟩

theorem commentForMutation_ok {id : Int} {actor : Option Int} {m : Comment}
    (h : commentForMutation id actor db = .ok m db') : m.id = id ∧ db' = db := by
  refine ⟨?_, (readOnly_commentForMutation id actor).ok h⟩
  obtain ⟨comment, _, hfound, h⟩ := bind_ok.mp h
  have hid : comment.id = id := Table.key_of_find? (requireComment_ok.mp hfound).1
  obtain ⟨_, _, -, h⟩ := bind_ok.mp h
  cases actor with
  | none =>
      obtain ⟨_, _, -, h⟩ := bind_ok.mp h
      exact (pure_ok.mp h).1 ▸ hid
  | some runId =>
      obtain ⟨_, _, -, h⟩ := bind_ok.mp h
      obtain ⟨_, _, -, h⟩ := bind_ok.mp h
      exact (pure_ok.mp h).1 ▸ hid

/-! ## Every step -/

/-- The comment whose body the step replaces, if it does. -/
def acceptedEdit (w : World) : Label → Option Int
  | .request env (.commentUpdate id body actor) =>
      if succeeded (commentUpdate env id body actor w.daemon) then some id else none
  | _ => none

theorem speaks_of_adds {α : Type} {x : DaemonM α} (h : Respects AddsTo x) (d : DaemonState) :
    Speaks d.db.toTables (finalState (x d)).db.toTables none := .adds (h d)

theorem speaks_commentUpdate (id : Int) (body : String) (actor : Option Int) (d : DaemonState) :
    Speaks d.db.toTables (finalState (commentUpdate env id body actor d)).db.toTables
      (if succeeded (commentUpdate env id body actor d) then some id else none) := by
  cases h : commentUpdate env id body actor d with
  | error e d' =>
      rw [commentUpdate_atomic id body actor d e d' h]
      exact .adds (.refl _)
  | ok m d' =>
      obtain ⟨db, hrun, rfl⟩ := store_ok.mp h
      obtain ⟨comment, _, hcomment, hrun⟩ := bind_ok.mp hrun
      obtain ⟨rfl, rfl⟩ := commentForMutation_ok hcomment
      exact .edits (edits_updateComment hrun)

theorem speaks_commentDelete (id : Int) (actor : Option Int) (d : DaemonState) :
    Speaks d.db.toTables (finalState (commentDelete env id actor d)).db.toTables none := by
  cases h : commentDelete env id actor d with
  | error e d' =>
      rw [commentDelete_atomic id actor d e d' h]
      exact .adds (.refl _)
  | ok m d' =>
      obtain ⟨db, hrun, rfl⟩ := store_ok.mp h
      obtain ⟨comment, _, hcomment, hrun⟩ := bind_ok.mp hrun
      obtain ⟨rfl, rfl⟩ := commentForMutation_ok hcomment
      obtain ⟨_, _, hdelete, hdone⟩ := bind_ok.mp hrun
      obtain ⟨-, rfl⟩ := pure_ok.mp hdone
      exact .marks (marks_softDeleteComment hdelete)

theorem Drops.of_talk {cardId : Int} {t t' t'' : Tables} (h : Drops cardId t t')
    (htalk : talk t'' = talk t') : Drops cardId t t'' := by
  obtain ⟨hcomments, hhistory⟩ :=
    Prod.mk.inj (show (t''.comments, t''.commentHistory) =
      (t'.comments, t'.commentHistory) from htalk)
  refine ⟨fun k => hcomments ▸ h.comments k, fun k m hm hcard => ?_⟩
  rw [← h.trail k m hm hcard, listCommentHistory, hhistory]
  rfl

theorem deleteCard_atomic (id : Int) : Atomic (deleteCard id) := by
  refine (readOnly_requireCard id).bind_atomic fun card => (exec_atomic _).bind_total fun _ db => ?_
  obtain ⟨u, db', h⟩ := setCardPositions_total (db.cards.slots card.columnId) db
  exact ⟨u, db', transaction_ok.mpr h⟩

theorem speaks_cardDelete (id : Int) (d : DaemonState) :
    Speaks d.db.toTables (finalState (cardDelete id d)).db.toTables none := by
  have hatomic : Atomic (cardDelete id) :=
    atomic_store ((readOnly_requireCard _).bind_atomic fun _ =>
    readOnly_get.bind_atomic fun _ => (readOnly_refuse _ _).bind_atomic fun _ =>
      deleteCard_atomic id)
  cases h : cardDelete id d with
  | error e d' =>
      rw [hatomic d e d' h]
      exact .adds (.refl _)
  | ok u d' =>
      obtain ⟨db, hrun, rfl⟩ := store_ok.mp h
      simp only [bind_ok, requireCard_ok, get_ok, refuse_ok, deleteCard] at hrun
      obtain ⟨_, _, ⟨-, rfl⟩, _, _, ⟨rfl, rfl⟩, _, _, ⟨-, rfl⟩, card, _, ⟨-, rfl⟩, _, dropped,
        hdrop, hrenumber⟩ := hrun
      have htalk : talk db.toTables = talk dropped.toTables :=
        (keeps_renumberColumnCardsTx placeBlind_talk _).transaction.ok hrenumber
      exact .drops ((drops_deleteCardRow hdrop).of_talk htalk)

theorem speaks_request (d : DaemonState) (r : Request) :
    Speaks d.db.toTables (serveRequest cfg env d r).db.toTables
      (acceptedEdit { World.start d.db with daemon := d } (.request env r)) := by
  cases r with
  | cardCreate p => exact speaks_of_adds (quiet_cardCreate p) d
  | cardDuplicate id => exact speaks_of_adds (quiet_store (keeps_duplicateCard workBlind_talk id)) d
  | cardUpdate p => exact speaks_of_adds (quiet_cardUpdate p) d
  | cardDelete id => exact speaks_cardDelete id d
  | cardArchive id archived => exact speaks_of_adds (quiet_cardArchive id archived) d
  | cardMove p => exact speaks_of_adds (quiet_cardMove p) d
  | commentAdd p => exact speaks_of_adds (adds_commentAdd p) d
  | commentUpdate id body actor => exact speaks_commentUpdate id body actor d
  | commentDelete id actor => exact speaks_commentDelete id actor d
  | runRetryReset cardId =>
      exact speaks_of_adds (quiet_keepsStored (keeps_retryReset talk cardId)) d
  | runRetryEnqueue cardId columnId =>
      exact speaks_of_adds (quiet_enqueueRun cardId columnId true) d
  | runCancelQueued cardId => exact speaks_of_adds (adds_cancelQueued cardId) d
  | columnCreate p =>
      exact speaks_of_adds (quiet_keepsStored (keeps_columnCreate columnBlind_talk p)) d
  | columnUpdate p =>
      exact speaks_of_adds (quiet_keepsStored (keeps_columnUpdate columnBlind_talk p)) d
  | columnReorder id position =>
      exact speaks_of_adds (quiet_store (keeps_reorderColumn columnBlind_talk id position)) d
  | columnDelete id dst =>
      exact speaks_of_adds
        (quiet_keepsStored (keeps_columnDelete placeBlind_talk columnBlind_talk id dst)) d
  | templateApply boardId =>
      exact speaks_of_adds (quiet_keepsStored (keeps_templateApply columnBlind_talk boardId)) d
  | boardOpen scopePath =>
      exact speaks_of_adds
        (quiet_store (keeps_openBoard siteBlind_talk columnBlind_talk scopePath)) d
  | boardCreate projectId name =>
      exact speaks_of_adds
        (quiet_store (keeps_createBoard siteBlind_talk columnBlind_talk projectId name)) d
  | boardSelect boardId =>
      exact speaks_of_adds (quiet_store (keeps_selectBoard siteBlind_talk.picker boardId)) d
  | boardRename boardId name =>
      exact speaks_of_adds (quiet_store (keeps_renameBoard siteBlind_talk boardId name)) d
  | boardArchive boardId archived =>
      exact speaks_of_adds
        (quiet_store (keeps_setBoardArchived siteBlind_talk env.conn boardId archived)) d
  | projectCreate scopePath =>
      exact speaks_of_adds
        (quiet_store (keeps_createProjectContext siteBlind_talk columnBlind_talk scopePath)) d
  | projectOpen scopePath =>
      exact speaks_of_adds
        (quiet_store (keeps_openProjectContext siteBlind_talk columnBlind_talk scopePath)) d
  | projectSelect scopePath boardId =>
      exact speaks_of_adds
        (quiet_store (keeps_selectProjectByScope siteBlind_talk.picker scopePath boardId)) d
  | projectArchive scopePath archived =>
      exact speaks_of_adds
        (quiet_store (keeps_setProjectArchived siteBlind_talk env.conn scopePath archived)) d

theorem adds_writeSignal (card : Card) (dec : SignalDecision) :
    Respects AddsDb (writeSignal env card dec) := by
  unfold writeSignal
  cases dec.awaitingReason with
  | some reason =>
      exact respects_ite (fun _ => adds_keeps (keeps_pauseRunTimeoutUow workBlind_talk _ _ _))
        fun _ => adds_keeps (keeps_setCardAwaiting workBlind_talk _ _)
  | none =>
      exact respects_ite (fun _ => adds_keeps (keeps_resumeRunTimeoutUow workBlind_talk _ _ _))
        fun _ => adds_keeps (keeps_setCardStatus workBlind_talk _ _)

theorem adds_finalizes {runId : Int} {outcome : RunOutcome} {summary extraComment : Option String}
    {kill : Bool}
    (h : FinalizesOrNot cfg env runId outcome summary extraComment kill d d') : AddsTo d d' := by
  rcases h with rfl | ⟨run, plan, h⟩
  · exact refl_of AddsTo d'
  · obtain ⟨effects, huow⟩ := h.committed
    exact (adds_finalizeRunUow _).ok huow

theorem adds_applySignalGuarded {runId cardId : Int} {signal : AgentSignal} {guard : SignalGuard} :
    AddsTo d (applySignalGuarded env runId cardId signal guard d) := by
  rcases @applySignalGuarded_cases env runId cardId signal guard d with h | ⟨_, _, card, dec, h⟩
  · rw [h]
    exact refl_of AddsTo d
  · obtain ⟨c, hwrite⟩ := h.written
    exact (adds_writeSignal card dec).ok hwrite

theorem adds_of_db (h : d'.db = d.db) : AddsTo d d' := by
  rw [AddsTo, h]
  exact refl_of AddsDb d.db

theorem adds_watch (d : DaemonState) (x : Watch) : AddsTo d (serveWatch cfg env d x) := by
  cases x with
  | finalizeRun runId outcome summary extra kill transition =>
      exact adds_finalizes (finalizeRun_cases d)
  | candidate c now =>
      show AddsTo d (applyCandidate cfg env c now d)
      unfold applyCandidate
      split
      · exact adds_finalizes (finalizeRunInner_cases _ d)
      · split
        · exact adds_applySignalGuarded
        · exact refl_of AddsTo d
  | signal runId cardId signal => exact adds_applySignalGuarded
  | clearIdle runId => exact adds_of_db (setIdle_db ..)
  | armIdle runId => exact adds_of_db (armIdle_db ..)
  | forget runId =>
      show AddsTo d (if runOpen d runId then d else _)
      split <;> exact adds_of_db rfl

theorem talk_tryRegister {runId : Int} {handle : RuntimeHandle} {started : Instant}
    {deadline : Option Instant} {deadlineAtMs : Option Int} {b : Bool}
    (h : tryRegister env runId handle started deadline deadlineAtMs d = .ok b d') :
    talk d'.db.toTables = talk d.db.toTables := by
  simp only [tryRegister, bind_ok, store_ok, getRun_ok, get_ok, ite_ok, pure_ok, okOr_ok, modify_ok]
    at h
  obtain ⟨run, _, ⟨_, ⟨-, rfl⟩, rfl⟩, _, _, ⟨rfl, rfl⟩, ⟨-, rfl, rfl⟩ | ⟨-, h⟩⟩ := h
  · rfl
  · obtain ⟨card, _, ⟨-, rfl⟩, promoted, _, ⟨db, hpromote, rfl⟩, _, _, rfl, rfl, rfl⟩ := h
    exact (keeps_promoteRunWithAnchorUow workBlind_talk _ _ _ _ _ _).ok hpromote

theorem adds_dispatch (w : World) (x : Dispatch) :
    AddsTo w.daemon (serveDispatch cfg env w x).daemon := by
  cases x with
  | readActive =>
      simp only [serveDispatch]
      split <;> exact adds_of_db rfl
  | claim =>
      simp only [serveDispatch]
      cases w.pass <;> exact adds_of_db rfl
  | registered claimed column handle =>
      simp only [serveDispatch]
      split
      · unfold registerSpawnedRun
        rcases tryRegister_cases env claimed.1.id handle env.instant
            (startDeadlines cfg env column).1
          (startDeadlines cfg env column).2 w.daemon with ⟨e, h⟩ | h | ⟨run, d', h, -⟩
        · rw [h]
          exact adds_of_db rfl
        · rw [h]
          exact adds_of_db rfl
        · rw [h]
          exact .of_talk (talk_tryRegister h)
      · exact adds_of_db rfl
  | failed claimed reason =>
      simp only [serveDispatch]
      split
      · rw [failQueuedRun, finalState_bind_readOnly fun _ => readOnly_pure _]
        exact adds_store (adds_finalizeRunUow _) w.daemon
      · exact adds_of_db rfl
  | abandoned claimed => exact adds_of_db rfl
  | warned cardId body => exact adds_store (adds_addComment _ _ _ _) w.daemon

/-- Every step of the daemon speaks. -/
theorem speaks_next (w : World) (l : Label) :
    Speaks w.daemon.db.toTables (w.next cfg l).daemon.db.toTables (acceptedEdit w l) := by
  cases l with
  | request env r =>
      have hedit : acceptedEdit w (.request env r) =
          acceptedEdit { World.start w.daemon.db with daemon := w.daemon } (.request env r) := by
        cases r <;> rfl
      rw [hedit]
      exact speaks_request w.daemon r
  | watch env x => exact .adds (adds_watch w.daemon x)
  | dispatch env x => exact .adds (adds_dispatch w x)
  | adopt env x =>
      refine .adds (adds_of_db ?_)
      exact adopt_db ..
  | restart => exact .adds (.refl _)

/-! ## Every run -/

/-- The bodies a comment has had along a run. -/
def bodiesAlong (cfg : Config) (id : Int) (w : World) (bodies : List String) :
    List Label → List String
  | [] => bodies
  | l :: ls =>
      let after := w.next cfg l
      bodiesAlong cfg id after (bodiesAfter (acceptedEdit w l == some id)
        (w.daemon.db.comments.find? id) (after.daemon.db.comments.find? id) bodies) ls

theorem tells_along {id : Int} (ls : List Label) (w : World) (bodies : List String)
    (h : ∀ m, w.daemon.db.comments.find? id = some m →
      Tells m (listCommentHistory w.daemon.db.toTables id) bodies) {m : Comment}
    (hm : (w.run cfg ls).daemon.db.comments.find? id = some m) :
    Tells m (listCommentHistory (w.run cfg ls).daemon.db.toTables id)
      (bodiesAlong cfg id w bodies ls) := by
  induction ls generalizing w bodies with
  | nil => exact h m hm
  | cons l ls ih => exact ih (w.next cfg l) _ (fun m' hm' => (speaks_next w l).tells h hm') hm

/-! ## Listing and prompting -/

theorem mem_listComments {cardId : Int} {m : Comment} :
    m ∈ db.listComments cardId ↔ m ∈ db.comments ∧ m.cardId = cardId ∧ m.deletedAt = none := by
  simp [Db.listComments]

instance : Std.Total fun a b : Comment => a.createdAt ≤ b.createdAt :=
  ⟨fun a b => String.le_total a.createdAt b.createdAt⟩

instance : IsTrans Comment fun a b => a.createdAt ≤ b.createdAt :=
  ⟨fun _ _ _ h h' => String.le_trans h h'⟩

/-- By the stamps, and among equal stamps by the ids. -/
theorem listComments_ordered (cardId : Int) : (db.listComments cardId).Pairwise fun a b =>
    a.createdAt < b.createdAt ∨ a.createdAt = b.createdAt ∧ a.id < b.id := by
  have hids : (db.comments.select fun m => m.cardId == cardId && m.deletedAt.isNone).Pairwise
      fun a b => a.id < b.id :=
    db.comments.ascending.sublist List.filter_sublist
  refine (pairwise_insertionSort_stable hids).imp fun {a b} h => ?_
  by_cases hback : b.createdAt ≤ a.createdAt
  · exact .inr ⟨String.le_antisymm h.1 hback, h.2 hback⟩
  · exact .inl (String.not_le.mp hback)

theorem prompt_of_prepare {card : Card} {columnId : Int} {isRetry : Bool}
    {prepared : PreparedEnqueue}
    (h : prepareEnqueueValues cfg env card columnId isRetry db = .ok prepared db') :
    prepared.prompt = assemblePrompt card.description (db.listComments card.id) := by
  simp only [prepareEnqueueValues, bind_ok, requireColumn_ok, get_ok, fromExcept_ok, pure_ok] at h
  obtain ⟨_, _, ⟨-, rfl⟩, _, _, ⟨rfl, rfl⟩, _, _, ⟨-, rfl⟩, _, _, ⟨-, rfl⟩, _, _, ⟨-, rfl⟩, rfl,
    -⟩ := h
  rfl

/-- Older comments than the last twenty are not looked at. -/
theorem assemblePrompt_recent (description : String) (comments : List Comment) :
    assemblePrompt description comments =
    assemblePrompt description (comments.drop (comments.length - MAX_PROMPT_COMMENTS)) := by
  have hempty : (comments.drop (comments.length - MAX_PROMPT_COMMENTS)).isEmpty =
      comments.isEmpty := by
    cases comments with
    | nil => rfl
    | cons m ms =>
        have hlt : ms.length - 19 < ms.length + 1 := by omega
        simp [MAX_PROMPT_COMMENTS, hlt]
  have hdrop : (comments.drop (comments.length - MAX_PROMPT_COMMENTS)).length -
      MAX_PROMPT_COMMENTS = 0 := by
    rw [List.length_drop]
    omega
  rw [assemblePrompt, assemblePrompt, hempty, hdrop, List.drop_zero]

/-- A comment of the system, or a deleted one, is not edited and not deleted again. -/
theorem fixed_refused {id : Int} {m : Comment} (hm : d.db.comments.find? id = some m)
    (hfixed : m.author = "system" ∨ m.deletedAt.isSome) (body : String) (actor : Option Int) :
    ¬ succeeded (commentUpdate env id body actor d) ∧
    ¬ succeeded (commentDelete env id actor d) := by
  have hnot {m' : Comment} (hm' : d.db.comments.find? id = some m') (hauthor : m'.author ≠ "system")
      (hlive : m'.deletedAt = none) :
      False := by
    rw [hm, Option.some.injEq] at hm'
    subst hm'
    simp [hauthor, hlive] at hfixed
  constructor
  · intro h
    obtain ⟨_, d', h⟩ := ok_of_succeeded h
    obtain ⟨db, hrun, rfl⟩ := store_ok.mp h
    obtain ⟨comment, _, hcomment, hrun⟩ := bind_ok.mp hrun
    obtain ⟨rfl, rfl⟩ := commentForMutation_ok hcomment
    obtain ⟨m', _, hm', hauthor, hlive, -⟩ := (edits_updateComment hrun).there
    exact hnot hm' hauthor hlive
  · intro h
    obtain ⟨_, d', h⟩ := ok_of_succeeded h
    obtain ⟨db, hrun, rfl⟩ := store_ok.mp h
    obtain ⟨comment, _, hcomment, hrun⟩ := bind_ok.mp hrun
    obtain ⟨rfl, rfl⟩ := commentForMutation_ok hcomment
    obtain ⟨_, _, hdelete, -⟩ := bind_ok.mp hrun
    obtain ⟨m', _, hm', hauthor, hlive, -⟩ := (marks_softDeleteComment hdelete).there
    exact hnot hm' hauthor hlive

/-- The comments a prompt is assembled from: the last ones of the card. -/
def recentComments (db : Db) (cardId : Int) : List Comment :=
  let comments := db.listComments cardId
  comments.drop (comments.length - MAX_PROMPT_COMMENTS)

theorem comments_tell_timelines (cfg : Config) :
    (∀ ls id m, ((World.start Db.fresh).run cfg ls).daemon.db.comments.find? id = some m →
      Tells m (listCommentHistory ((World.start Db.fresh).run cfg ls).daemon.db.toTables id)
        (bodiesAlong cfg id (World.start Db.fresh) [] ls)) ∧
    (∀ (w : World) (l : Label) id m', (w.next cfg l).daemon.db.comments.find? id = some m' →
      (∀ m, w.daemon.db.comments.find? id = some m →
        m'.author = m.author ∧ m'.cardId = m.cardId ∧
        (m.author = "system" ∨ m.deletedAt.isSome → m' = m)) ∧
      (w.daemon.db.comments.find? id = none →
        ∀ k, (w.daemon.db.comments.find? k).isSome → k < id)) ∧
    (∀ env id body actor (d : DaemonState) m, d.db.comments.find? id = some m →
      m.author = "system" ∨ m.deletedAt.isSome →
      ¬ succeeded (commentUpdate env id body actor d) ∧
      ¬ succeeded (commentDelete env id actor d)) ∧
    (∀ env, (∀ p, Atomic (commentAdd env p)) ∧
      (∀ id body actor, Atomic (commentUpdate env id body actor)) ∧
      (∀ id actor, Atomic (commentDelete env id actor)) ∧
      ∀ runId outcome summary extraComment kill transition,
        Atomic (finalizeRun cfg env runId outcome summary extraComment kill transition)) ∧
    (∀ (db : Db) cardId, (∀ m, m ∈ db.listComments cardId ↔
      m ∈ db.comments ∧ m.cardId = cardId ∧ m.deletedAt = none) ∧
      (db.listComments cardId).Pairwise fun a b => a.createdAt < b.createdAt ∨
      a.createdAt = b.createdAt ∧ a.id < b.id) ∧
    (∀ env card columnId isRetry db prepared db',
      prepareEnqueueValues cfg env card columnId isRetry db = .ok prepared db' →
      prepared.prompt = assemblePrompt card.description (recentComments db card.id)) := by
  refine ⟨fun ls id m hm => ?_, fun w l id m' hm' => ⟨fun m hm => ?_, fun hm k hk => ?_⟩,
    fun env id body actor d m hm hfixed => fixed_refused hm hfixed body actor,
      fun env => ⟨?_, ?_, ?_, ?_⟩,
    fun db cardId => ⟨fun m => mem_listComments, listComments_ordered cardId⟩,
    fun env card columnId isRetry db prepared db' h => ?_⟩
  · refine tells_along ls (World.start Db.fresh) [] (fun m hm => ?_) hm
    cases hm
  · exact (speaks_next w l).keeps hm hm'
  · exact (speaks_next w l).above hm hm' hk
  · exact commentAdd_atomic
  · exact commentUpdate_atomic
  · exact commentDelete_atomic
  · exact finalizeRun_atomic
  · rw [prompt_of_prepare h, assemblePrompt_recent]
    rfl

/-- The characters of a prompt are those of the description, of the recent comments and of the
fixed texts. -/
theorem mem_assemblePrompt {description : String} {comments : List Comment} {c : Char}
    (h : c ∈ (assemblePrompt description comments).toList) :
    c ∈ description.toList ∨ c ∈ ("\n\n## Card comments\n" ++ "\n\n" ++ PROMPT_CLOSEOUT).toList ∨
      ∃ m ∈ comments.drop (comments.length - MAX_PROMPT_COMMENTS), c ∈ (commentLine m).toList := by
  simp only [assemblePrompt, String.toList_append, List.mem_append] at h ⊢
  rcases h with (h | h) | h
  · split at h
    · exact .inl h
    · have htext := (List.dropWhile_sublist _).subset
        (List.mem_reverse.mp (String.toList_ofList ▸ h))
      simp only [List.mem_reverse, String.toList_append, List.mem_append, String.toList_join,
        List.mem_flatMap, List.mem_map] at htext
      rcases htext with (h | h) | ⟨_, ⟨m, hm, rfl⟩, h⟩
      · exact .inl h
      · exact .inr (.inl (.inl (.inl h)))
      · exact .inr (.inr ⟨m, hm, h⟩)
  · exact .inr (.inl (.inl (.inr h)))
  · exact .inr (.inl (.inr h))

theorem mem_prompt {card : Card} {columnId : Int} {isRetry : Bool} {prepared : PreparedEnqueue}
    {c : Char} (h : prepareEnqueueValues cfg env card columnId isRetry db = .ok prepared db')
    (hc : c ∈ prepared.prompt.toList) :
    c ∈ card.description.toList ∨
    c ∈ ("\n\n## Card comments\n" ++ "\n\n" ++ PROMPT_CLOSEOUT).toList ∨
      ∃ m ∈ recentComments db card.id, c ∈ (commentLine m).toList := by
  rw [prompt_of_prepare h] at hc
  exact mem_assemblePrompt hc

/-- A card with twenty-one comments, and one whose second comment was added after the clock
was set back. -/
def talkedOver : Db × Db :=
  let card := [.request permissiveEnv (.cardCreate { title := "Task", spaceRef := some "w1" })]
  let comment (body : String) : Label := .request permissiveEnv (.commentAdd { cardId := 1, body })
  let earlier : Env := { permissiveEnv with conn := { now := "2025-12-31 23:59:59" } }
  let run (ls : List Label) : Db := ((World.start Db.fresh).run oneAtATime (card ++ ls)).daemon.db
  (run (comment "why?" :: List.replicate 20 (comment "more")),
    run [comment "first", .request earlier (.commentAdd { cardId := 1, body := "second" })])

theorem exists_of_any {α : Type} {p : α → Prop} [DecidablePred p] {o : Option α}
    (h : o.any (fun a => decide (p a)) = true) : ∃ a, o = some a ∧ p a := by
  cases o with
  | none => cases h
  | some a => exact ⟨a, rfl, of_decide_eq_true h⟩

theorem not_mem_append {c : Char} {s t : String} (hs : c ∉ s.toList) (ht : c ∉ t.toList) :
    c ∉ (s ++ t).toList := by
  rw [String.toList_append, List.mem_append]
  exact fun h => h.elim hs ht

theorem not_mem_ofList {c : Char} {s : String} {cs : List Char} (hs : s = String.ofList cs)
    (hcs : c ∉ cs) : c ∉ s.toList := by
  rw [hs, String.toList_ofList]
  exact hcs

theorem mark_not_mem_closeout : '?' ∉ PROMPT_CLOSEOUT.toList := by
  unfold PROMPT_CLOSEOUT
  exact not_mem_append
    (not_mem_append (not_mem_append (not_mem_ofList rfl (by decide))
      (not_mem_ofList rfl (by decide)))
    (not_mem_ofList rfl (by decide))) (not_mem_ofList rfl (by decide))

/-- The first of twenty-one comments is not in the prompt, and a comment of an earlier stamp is
listed first. -/
theorem first_comment_left_out :
    ((talkedOver.1.listComments 1).length = 21 ∧
      (∃ m ∈ talkedOver.1.listComments 1, m.body = "why?") ∧
      ∃ card prepared, talkedOver.1.card? 1 = some card ∧
        prepareEnqueueValues oneAtATime permissiveEnv card 1 false talkedOver.1 =
        .ok prepared talkedOver.1 ∧ '?' ∉ prepared.prompt.toList) ∧
    (talkedOver.2.listComments 1).map (fun m => (m.id, m.body)) =
      [(2, "second"), (1, "first")] := by
  have hfacts : (talkedOver.1.listComments 1).length = 21 ∧
      (∃ m ∈ talkedOver.1.listComments 1, m.body = "why?") ∧
      ((talkedOver.1.card? 1).any fun card : Card => decide (card.description = "" ∧ card.id = 1 ∧
        succeeded (prepareEnqueueValues oneAtATime permissiveEnv card 1 false talkedOver.1) =
          true)) = true ∧
      (∀ m ∈ recentComments talkedOver.1 1, m.author = "user" ∧
        m.createdAt = "2026-01-01 00:00:00" ∧ m.body = "more") ∧
      (talkedOver.2.listComments 1).map (fun m => (m.id, m.body)) =
        [(2, "second"), (1, "first")] := by
    decide +kernel
  obtain ⟨hlength, hwhy, hprepares, hrecent, hlisted⟩ := hfacts
  refine ⟨⟨hlength, hwhy, ?_⟩, hlisted⟩
  obtain ⟨card, hcard, hdescription, hid, hok⟩ := exists_of_any hprepares
  obtain ⟨prepared, db, hprepared⟩ := ok_of_succeeded hok
  have hsame : db = talkedOver.1 := (readOnly_prepareEnqueueValues _ _ _).ok hprepared
  rw [hsame] at hprepared
  refine ⟨card, prepared, hcard, hprepared, fun hmem => ?_⟩
  have hparts := mem_prompt hprepared hmem
  rw [hdescription, hid] at hparts
  rcases hparts with h | h | ⟨m, hm, h⟩
  · simp at h
  · exact absurd h (not_mem_append
      (not_mem_append (not_mem_ofList rfl (by decide)) (not_mem_ofList rfl (by decide)))
        mark_not_mem_closeout)
  · simp [commentLine, hrecent m hm] at h

end HerdrBoard.Comments
