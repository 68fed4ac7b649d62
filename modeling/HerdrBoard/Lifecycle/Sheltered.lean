import HerdrBoard.Daemon.Creations
import HerdrBoard.Lifecycle.Creating
import HerdrBoard.Lifecycle.Theorems

/-!
# Open runs stay sheltered

Every step of the daemon keeps the cards of open runs, their boards and their projects out of the
archive, except a creation whose destination was archived after its guard. -/

open Lib HerdrBoard.Core HerdrBoard.Daemon HerdrBoard.Projects

namespace HerdrBoard.Lifecycle

variable {cfg : Config} {env : Env} {db db' : Db} {d d' : DaemonState}

/-! ## Requests -/

theorem keepsShelter_store {α : Type} {x : StoreM α} (h : Respects (CalmDb fun _ => False) x)
    (d : DaemonState) : KeepsShelter d.db (finalState (store x d)).db := by
  rw [store, finalState_zoom]
  exact keepsShelter_of_idle (h d.db)

theorem keepsShelter_enters {α : Type} {x : StoreM α} (hwork : KeepsTables Tables.work x)
    (h : Respects EntersDb x) (d : DaemonState) : KeepsShelter d.db (finalState (store x d)).db :=
  keepsShelter_store (calm_of_enters hwork h) d

theorem keepsShelter_cardUpdate (p : CardUpdateParams) (d : DaemonState) :
    KeepsShelter d.db (finalState (cardUpdate env p d)).db := by
  refine keepsShelter_store ?_ d
  refine (readOnly_requireCard _).respects.bind fun card =>
    (readOnly_fromExcept _).respects.bind fun _ => ?_
  refine readOnly_get.respects.bind fun db => (readOnly_refuse _ _).respects.bind fun _ => ?_
  exact (readOnly_fromExcept _).respects.bind fun _ => calm_updateCard p

theorem keepsShelter_cardDelete (id : Int) (d : DaemonState) :
    KeepsShelter d.db (finalState (cardDelete id d)).db := by
  refine keepsShelter_store ?_ d
  refine (readOnly_requireCard _).respects.bind fun _ => readOnly_get.respects.bind fun db => ?_
  exact (readOnly_refuse _ _).respects.bind fun _ => calm_deleteCard id

theorem keepsShelter_cardArchive (id : Int) (archived : Bool) (d : DaemonState) :
    KeepsShelter d.db (finalState (cardArchive env id archived d)).db := by
  rw [cardArchive, store, finalState_zoom]
  refine keepsShelter_of_idle ?_
  refine (readOnly_requireCard id).bind_at fun card _ => readOnly_get.bind_at fun db hdb => ?_
  obtain ⟨rfl, -⟩ := get_ok.mp hdb
  cases archived with
  | false => exact calm_setCardArchived (by simp)
  | true =>
      refine (readOnly_fromExcept _).bind_at fun _ _ =>
        (readOnly_refuse _ _).bind_at fun _ hopen => ?_
      exact calm_setCardArchived fun _ => mt openOn_iff_openRunForCard.mp (refuse_ok.mp hopen).1

theorem keepsShelter_cancelQueued (cardId : Int) (d : DaemonState) :
    KeepsShelter d.db (finalState (cancelQueued env cardId d)).db := by
  rw [cancelQueued, db_store_bind fun _ _ => rfl]
  refine keepsShelter_of_idle ?_
  refine readOnly_get.bind_at fun db _ => (readOnly_okOr _ _).bind_at fun queued _ => ?_
  exact calm_finalizeRunUow _ d.db

theorem keepsShelter_of_keepsStored {α : Type} {x : DaemonM α} (h : KeepsStored tenancy x)
    (d : DaemonState) : KeepsShelter d.db (finalState (x d)).db := by
  have hsame := h d
  simp only [SameBy, Prod.mk.injEq] at hsame
  exact keepsShelter_of_idle (calm_of_tenancy hsame.1)

/-- A request keeps open runs sheltered; a creation that starts a run must still pass its guard. -/
theorem keepsShelter_request (d : DaemonState) (r : Request)
    (hguard : ∀ p, r = .cardCreate p → StartsRun d.db p → createGuard p d.db = .ok () d.db) :
    KeepsShelter d.db (serveRequest cfg env d r).db := by
  cases r with
  | cardCreate p => exact keepsShelter_cardCreate (hguard p rfl)
  | cardDuplicate id => exact keepsShelter_store (calm_duplicateCard id) d
  | cardUpdate p => exact keepsShelter_cardUpdate p d
  | cardDelete id => exact keepsShelter_cardDelete id d
  | cardArchive id archived => exact keepsShelter_cardArchive id archived d
  | cardMove p => exact keepsShelter_cardMove p d
  | commentAdd p => exact keepsShelter_of_keepsStored (keeps_commentAdd commentBlind_tenancy p) d
  | commentUpdate id body actor =>
      exact keepsShelter_of_keepsStored (keeps_commentUpdate commentBlind_tenancy id body actor) d
  | commentDelete id actor =>
      exact keepsShelter_of_keepsStored (keeps_commentDelete commentBlind_tenancy id actor) d
  | runRetryReset cardId => exact keepsShelter_of_keepsStored (keeps_retryReset tenancy cardId) d
  | runRetryEnqueue cardId columnId => exact keepsShelter_enqueueRun cardId columnId true d
  | runCancelQueued cardId => exact keepsShelter_cancelQueued cardId d
  | columnCreate p => exact keepsShelter_of_keepsStored (keeps_columnCreate columnBlind_tenancy p) d
  | columnUpdate p => exact keepsShelter_of_keepsStored (keeps_columnUpdate columnBlind_tenancy p) d
  | columnReorder id position =>
      exact keepsShelter_of_keepsStored
        (keepsStored_store (keeps_reorderColumn columnBlind_tenancy id position)) d
  | columnDelete id dst =>
      exact keepsShelter_of_keepsStored
        (keeps_columnDelete placeBlind_tenancy columnBlind_tenancy id dst) d
  | templateApply boardId =>
      exact keepsShelter_of_keepsStored (keeps_templateApply columnBlind_tenancy boardId) d
  | boardOpen scopePath =>
      exact keepsShelter_enters (keeps_openBoard siteBlind_work columnBlind_work scopePath)
        (enters_openBoard scopePath) d
  | boardCreate projectId name =>
      exact keepsShelter_enters (keeps_createBoard siteBlind_work columnBlind_work projectId name)
        (enters_createBoard projectId name) d
  | boardSelect boardId =>
      exact keepsShelter_enters (keeps_selectBoard siteBlind_work.picker boardId)
        (enters_selectBoard boardId) d
  | boardRename boardId name =>
      exact keepsShelter_enters (keeps_renameBoard siteBlind_work boardId name)
        (enters_renameBoard boardId name) d
  | boardArchive boardId archived =>
      exact keepsShelter_store (fun _ => calm_setBoardArchived boardId archived) d
  | projectCreate scopePath =>
      exact keepsShelter_enters
        (keeps_createProjectContext siteBlind_work columnBlind_work scopePath)
        (enters_createProjectContext scopePath) d
  | projectOpen scopePath =>
      exact keepsShelter_enters (keeps_openProjectContext siteBlind_work columnBlind_work scopePath)
        (enters_openProjectContext scopePath) d
  | projectSelect scopePath boardId =>
      exact keepsShelter_enters (keeps_selectProjectByScope siteBlind_work.picker scopePath boardId)
        (enters_selectProjectByScope scopePath boardId) d
  | projectArchive scopePath archived =>
      exact keepsShelter_store (fun _ => calm_setProjectArchived scopePath archived) d

/-! ## Watchers and launches -/

theorem Finalizes.calm {runId : Int} {outcome : RunOutcome} {summary extraComment : Option String}
    {kill : Bool} {run : Run} {plan : TransitionPlan}
    (h : Finalizes cfg env runId outcome summary extraComment kill run plan d d') :
    CalmDb (fun _ => False) d.db d'.db := by
  obtain ⟨effects, huow⟩ := h.committed
  exact (calm_finalizeRunUow _).ok huow

theorem FinalizesOrNot.keepsShelter {runId : Int} {outcome : RunOutcome}
    {summary extraComment : Option String}
    {kill : Bool} (h : FinalizesOrNot cfg env runId outcome summary extraComment kill d d') :
    KeepsShelter d.db d'.db := by
  rcases h with rfl | ⟨run, plan, h⟩
  · exact id
  · exact keepsShelter_of_idle h.calm

theorem keeps_writeSignal (card : Card) (dec : SignalDecision) :
    KeepsTables tenancy (writeSignal env card dec) := by
  unfold writeSignal
  cases dec.awaitingReason with
  | some reason =>
      exact respects_ite (fun _ => keeps_tenancy_pauseRunTimeoutUow _ _ _) fun _ =>
        keeps_tenancy_setCardAwaiting _ _
  | none => exact respects_ite (fun _ => keeps_tenancy_resumeRunTimeoutUow _ _ _) fun _ =>
      keeps_tenancy_setCardStatus _ _

theorem keepsShelter_applySignalGuarded {runId cardId : Int} {signal : AgentSignal}
    {guard : SignalGuard} :
    KeepsShelter d.db (applySignalGuarded env runId cardId signal guard d).db := by
  rcases @applySignalGuarded_cases env runId cardId signal guard d with h | ⟨_, _, card, dec, h⟩
  · rw [h]
    exact id
  · obtain ⟨c, hwrite⟩ := h.written
    exact keepsShelter_of_idle (calm_of_tenancy ((keeps_writeSignal card dec).ok hwrite))

theorem keepsShelter_watch (d : DaemonState) (x : Watch) :
    KeepsShelter d.db (serveWatch cfg env d x).db := by
  cases x with
  | finalizeRun runId outcome summary extra kill transition =>
      exact (finalizeRun_cases d).keepsShelter
  | candidate c now =>
      show KeepsShelter d.db (applyCandidate cfg env c now d).db
      unfold applyCandidate
      split
      · exact (finalizeRunInner_cases _ d).keepsShelter
      · split
        · exact keepsShelter_applySignalGuarded
        · exact id
  | signal runId cardId signal => exact keepsShelter_applySignalGuarded
  | clearIdle runId =>
      show KeepsShelter d.db (setIdle runId none d).db
      rw [setIdle_db]
      exact id
  | armIdle runId =>
      show KeepsShelter d.db (armIdle env runId d).db
      rw [armIdle_db]
      exact id
  | forget runId =>
      show KeepsShelter d.db (if runOpen d runId then d else _).db
      split <;> exact id

theorem db_tryRegister {runId : Int} {handle : RuntimeHandle} {started : Instant}
    {deadline : Option Instant} {deadlineAtMs : Option Int} {b : Bool}
    (h : tryRegister env runId handle started deadline deadlineAtMs d = .ok b d') :
    tenancy d'.db.toTables = tenancy d.db.toTables := by
  simp only [tryRegister, bind_ok, store_ok, getRun_ok, get_ok, ite_ok, pure_ok, okOr_ok, modify_ok]
    at h
  obtain ⟨run, _, ⟨_, ⟨-, rfl⟩, rfl⟩, _, _, ⟨rfl, rfl⟩, ⟨-, rfl, rfl⟩ | ⟨-, h⟩⟩ := h
  · rfl
  · obtain ⟨card, _, ⟨-, rfl⟩, promoted, _, ⟨db, hpromote, rfl⟩, _, _, rfl, rfl, rfl⟩ := h
    exact (keeps_tenancy_promote _ _ _ _ _ _).ok hpromote

theorem keepsShelter_registerSpawnedRun (runId : Int) (handle : RuntimeHandle) (started : Instant)
    (deadline : Option Instant) (deadlineAtMs : Option Int) (d : DaemonState) :
    KeepsShelter d.db (finalState
      (registerSpawnedRun env runId handle started deadline deadlineAtMs d)).db := by
  unfold registerSpawnedRun
  rcases tryRegister_cases env runId handle started deadline deadlineAtMs d with
      ⟨e, h⟩ | h | ⟨run, d', h, -⟩
  · rw [h]
    exact id
  · rw [h]
    exact id
  · rw [h]
    exact keepsShelter_of_idle (calm_of_tenancy (db_tryRegister h))

theorem keepsShelter_dispatch (w : World) (x : Dispatch) :
    KeepsShelter w.daemon.db (serveDispatch cfg env w x).daemon.db := by
  cases x with
  | readActive =>
      simp only [serveDispatch]
      split <;> exact id
  | claim =>
      simp only [serveDispatch]
      cases w.pass <;> exact id
  | registered claimed column handle =>
      simp only [serveDispatch]
      split
      · exact keepsShelter_registerSpawnedRun _ _ _ _ _ _
      · exact id
  | failed claimed reason =>
      simp only [serveDispatch]
      split
      · rw [failQueuedRun, finalState_bind_readOnly fun _ => readOnly_pure _]
        exact keepsShelter_store (calm_finalizeRunUow _) w.daemon
      · exact id
  | abandoned claimed => exact id
  | warned cardId body =>
      exact keepsShelter_of_keepsStored
        (keepsStored_store (keeps_addComment commentBlind_tenancy _ _ _ _)) w.daemon

/-! ## Every step -/

/-- A creation that starts a run enters while its guard would still pass. -/
def GuardHolds (s : Creations) (l : CreationLabel) : Prop :=
  ∀ env p, l = .enter env p → StartsRun s.world.daemon.db p →
    createGuard p s.world.daemon.db = .ok () s.world.daemon.db

theorem keepsShelter_next (w : World) (l : Label)
    (hguard : ∀ env p, l = .request env (.cardCreate p) → StartsRun w.daemon.db p →
      createGuard p w.daemon.db = .ok () w.daemon.db) :
    KeepsShelter w.daemon.db (w.next cfg l).daemon.db := by
  cases l with
  | request env r => exact keepsShelter_request w.daemon r fun p hr => hguard env p (by rw [hr])
  | watch env x => exact keepsShelter_watch w.daemon x
  | dispatch env x => exact keepsShelter_dispatch w x
  | adopt env x =>
      show KeepsShelter w.daemon.db (serveAdopt env w x).daemon.db
      rw [adopt_db]
      exact id
  | restart => exact id

theorem keepsShelter_creations {s : Creations} {l : CreationLabel} (hguard : GuardHolds s l) :
    KeepsShelter s.world.daemon.db (s.next cfg l).world.daemon.db := by
  cases l with
  | guard p =>
      simp only [Creations.next]
      split <;> exact id
  | enter env p =>
      simp only [Creations.next]
      split
      · refine keepsShelter_next s.world _ fun env' p' h => ?_
        cases h
        exact hguard env p rfl
      · exact id
  | other l =>
      have hother (hcreate : ∀ env p, l ≠ .request env (.cardCreate p)) :
          KeepsShelter s.world.daemon.db (s.world.next cfg l).daemon.db :=
        keepsShelter_next s.world l fun env p h => absurd h (hcreate env p)
      cases l with
      | request env r =>
          cases r with
          | cardCreate p => exact id
          | _ => exact hother (by simp)
      | _ => exact hother (by simp)

/-! ## Every history -/

/-- The card of the run with its board and project, none of them archived. -/
structure Housed (db : Db) (run : Run) (card : Card) (board : Board) (project : Project) :
    Prop where
  found_card : db.card? run.cardId = some card
  found_board : db.board? card.boardId = some board
  found_project : db.project? board.projectId = some project
  card_active : card.archivedAt = none
  board_active : board.archivedAt = none
  project_active : project.archivedAt = none

/-- No open run lives under anything archived. -/
def OpenRunsHoused (db : Db) : Prop :=
  ∀ run ∈ db.runs, run.endedAt = none → ∃ card board project, Housed db run card board project

theorem openRunsHoused_iff : OpenRunsHoused db ↔ AllSheltered db.toTables := by
  constructor
  · intro h c hc
    obtain ⟨run, hrun, rfl, hopen⟩ := openOn_iff.mp hc
    obtain ⟨card, board, project, housed⟩ := h run hrun (isOpen_iff.mp hopen)
    refine sheltered_of_site housed.found_card (by simp [housed.card_active]) ?_
    exact activeSite_of_rows housed.found_board (by simp [housed.board_active]) housed.found_project
      (by simp [housed.project_active])
  · intro h run hrun hopen
    obtain ⟨b, P, hhome, hboard, hproject⟩ :=
      h run.cardId (openOn_iff.mpr ⟨run, hrun, rfl, isOpen_iff.mpr hopen⟩)
    obtain ⟨card, hcard, hid, rfl, hactive⟩ := mem_homes.mp hhome
    obtain ⟨board, hmem, hboardId, rfl, hboardActive⟩ := Tables.boardIs_iff.mp hboard
    obtain ⟨project, hmem', hprojectId, hprojectActive⟩ := Tables.projectIs_iff.mp hproject
    exact ⟨card, board, project,
      { found_card := hid ▸ Table.find?_key hcard
        found_board := hboardId ▸ Table.find?_key hmem
        found_project := hprojectId ▸ Table.find?_key hmem'
        card_active := by simpa using hactive
        board_active := by simpa using hboardActive
        project_active := by simpa using hprojectActive }⟩

theorem allSheltered_fresh : AllSheltered Db.fresh.toTables := by
  intro c hc
  obtain ⟨run, hrun, -⟩ := openOn_iff.mp hc
  cases hrun

theorem cardCreate_ok {p : CardCreateParams} {card : Card}
    (h : cardCreate cfg env p d = .ok card d') :
    ∃ entered, createEntering cfg env p d.db = .ok entered d'.db := by
  simp only [cardCreate, bind_ok, fromExcept_ok, store_ok, modify_ok, pure_ok] at h
  obtain ⟨_, _, ⟨-, rfl⟩, entered, _, ⟨db, henter, rfl⟩, _, _, rfl, -, rfl⟩ := h
  refine ⟨entered, ?_⟩
  rw [forgetHops_db]
  exact henter

/-- In every history whose creations start their runs while their guards would still pass, no open
run lives under anything archived; a creation that starts its run when its guard would not pass
puts one there. -/
theorem open_runs_housed_iff :
    (∀ s, (creations cfg).ReachableBy GuardHolds s → OpenRunsHoused s.world.daemon.db) ∧
    ∀ s env p s', (creations cfg).step s (.enter env p) s' → p ∈ s.passed →
      ¬GuardHolds s (.enter env p) →
      (∃ card d, cardCreate cfg env p s.world.daemon = .ok card d) →
        ¬OpenRunsHoused s'.world.daemon.db := by
  constructor
  · intro s h
    rw [openRunsHoused_iff]
    refine h.invariant (I := fun s => AllSheltered s.world.daemon.db.toTables) ?_ ?_
    · rintro s rfl
      exact allSheltered_fresh
    · rintro s l s' hs hguard rfl
      exact keepsShelter_creations hguard hs
  · rintro s env p s' rfl hpassed hguard ⟨card, d, hcreate⟩
    simp only [GuardHolds, not_forall] at hguard
    obtain ⟨_, _, hl, hstarts, hguard⟩ := hguard
    cases hl
    obtain ⟨entered, henter⟩ := cardCreate_ok hcreate
    have hafter : (s.next cfg (.enter env p)).world.daemon = d := by
      simp only [Creations.next, if_pos hpassed, World.next, serveRequest, hcreate, finalState_ok]
    rw [hafter, openRunsHoused_iff]
    exact createEntering_breaks hstarts hguard henter

/-- A creation whose guard still passes when it inserts its card. -/
def createUnderGuard : List CreationLabel :=
  [ .other (.request permissiveEnv (.columnUpdate { id := 1, trigger := some .auto })),
    .guard { title := "Task", spaceRef := some "w1" },
    .enter permissiveEnv { title := "Task", spaceRef := some "w1" } ]

theorem open_runs_housed_iff_guarded :
    OpenRunsHoused ((Creations.start Db.fresh).run oneAtATime createUnderGuard).world.daemon.db ∧
      (((Creations.start Db.fresh).run oneAtATime createUnderGuard).world.daemon.db.run? 1).map
        Run.isOpen = some true := by
  have hother {s : Creations} (l : CreationLabel) (hl : ∀ env p, l ≠ .enter env p)
      (h : (creations oneAtATime).ReachableBy GuardHolds s) :
      (creations oneAtATime).ReachableBy GuardHolds (s.next oneAtATime l) :=
    h.step (fun env p henter => absurd henter (hl env p)) rfl
  have hguarded := hother (.guard { title := "Task", spaceRef := some "w1" }) (by simp) <|
    hother (.other (.request permissiveEnv (.columnUpdate { id := 1, trigger := some .auto })))
      (by simp) (.init rfl)
  have hentered := hguarded.step (l :=
    .enter permissiveEnv { title := "Task", spaceRef := some "w1" }) (by
    rintro env p ⟨⟩ -
    rfl) rfl
  exact ⟨open_runs_housed_iff.1 _ hentered, by decide⟩

/-- A creation passes its guard, and its board is archived before the card and its run
are inserted. -/
def archiveWhileCreating : List CreationLabel :=
  [ .other (.request permissiveEnv (.columnUpdate { id := 1, trigger := some .auto })),
    .guard { title := "Task", spaceRef := some "w1" },
    .other (.request permissiveEnv (.boardArchive 1 true)),
    .enter permissiveEnv { title := "Task", spaceRef := some "w1" } ]

theorem open_run_on_archived_board : ∃ s, (creations oneAtATime).Reachable s ∧
    ∃ run ∈ s.world.daemon.db.runs, run.endedAt = none ∧
      ∃ card board, s.world.daemon.db.card? run.cardId = some card ∧
      s.world.daemon.db.board? card.boardId = some board ∧ board.archivedAt ≠ none := by
  let s := (Creations.start Db.fresh).run oneAtATime archiveWhileCreating
  have hrun : (s.world.daemon.db.run? 1).map (fun r => (r.cardId, r.endedAt)) = some (1, none) := by
    decide
  have hcard : (s.world.daemon.db.card? 1).map Card.boardId = some 1 := by decide
  have hboard : (s.world.daemon.db.board? 1).map (fun b => b.archivedAt.isSome) = some true := by
    decide
  obtain ⟨run, hrun, hopen⟩ := Option.map_eq_some_iff.mp hrun
  obtain ⟨card, hcard, hb⟩ := Option.map_eq_some_iff.mp hcard
  obtain ⟨board, hboard, harchived⟩ := Option.map_eq_some_iff.mp hboard
  obtain ⟨hid, hopen⟩ := Prod.mk.inj hopen
  refine ⟨s, creations_reachable_run (.init rfl) _, run, Table.mem_of_find? hrun, hopen, card,
    board, ?_, ?_, ?_⟩
  · rw [hid]
    exact hcard
  · rw [hb]
    exact hboard
  · exact Option.isSome_iff_ne_none.mp harchived

end HerdrBoard.Lifecycle
